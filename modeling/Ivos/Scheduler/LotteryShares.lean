/-
Module: Ivos.Scheduler.LotteryShares
Purpose: How many of the draws `lottery` turns into each Ready slot.
Trusted boundary: none
Main exports: tickets, winningDraws, strayDraws, winningDraws_card, Proportional,
  lottery_shares, blocked_thread_skews_shares
-/
import Ivos.Scheduler.Rotation
import Ivos.Scheduler.Tickets
import Mathlib.Order.Interval.Finset.Nat

namespace Ivos.Scheduler

variable {N : Nat}

/-! ### Draws

`lottery` takes `rand()` modulo `total_tickets`, so that a draw stands for its winning ticket
when it is below `total_tickets`.  Nothing is assumed about `rand`: shares are counted in
draws, each of them once.
-/

/-- The number of tickets a thread is given. -/
def tickets (thread : Gt) : Int := minPriority - thread.priority + 1

/-- The slot that `lottery`, called with the current slot, selects for a draw. -/
def lotteryChoice (sched : Sched N) (fuel draw : Nat) : Option (Fin N) :=
  (lottery sched.gtTable sched.gtCurrent sched.totalTickets draw fuel sched.gtCurrent).map
    Choice.thread

/-- The draws below `total_tickets` for which `lottery` selects the slot. -/
def winningDraws (sched : Sched N) (fuel : Nat) (slot : Fin N) : Finset Nat :=
  (Finset.range sched.totalTickets.toNat).filter fun draw =>
    lotteryChoice sched fuel draw = some slot

/-- The draws below `total_tickets` that no Ready or Running slot holds. -/
def strayDraws (sched : Sched N) : Finset Nat :=
  (Finset.range sched.totalTickets.toNat).filter fun draw =>
    ∀ slot, ¬ holdsTicket draw (sched.gtTable slot)

/-- The draws in the interval of the slot. -/
def ownDraws (sched : Sched N) (slot : Fin N) : Finset Nat :=
  Finset.Icc (sched.gtTable slot).ticketsLo.toNat (sched.gtTable slot).ticketsHi.toNat

/-- The draws of the two slots are as their tickets. -/
def Proportional (sched : Sched N) (fuel : Nat) (first second : Fin N) : Prop :=
  (winningDraws sched fuel first).card * tickets (sched.gtTable second) =
    (winningDraws sched fuel second).card * tickets (sched.gtTable first)

instance (sched : Sched N) (fuel : Nat) (first second : Fin N) :
    Decidable (Proportional sched fuel first second) :=
  inferInstanceAs (Decidable (_ = _))

namespace TicketsOwned

variable {sched : Sched N} {slot next : Fin N} {fuel draw : Nat}

/-- A draw below `total_tickets` is its own winning ticket. -/
theorem winningTicket (owned : TicketsOwned sched)
    (inRange : draw ∈ Finset.range sched.totalTickets.toNat) :
    (draw : Int).tmod sched.totalTickets = draw := by
  have positive := owned.positive
  have below := Finset.mem_range.mp inRange
  apply Int.tmod_eq_of_lt
  · exact Int.natCast_nonneg draw
  · omega

/-- A Ready slot has as many draws of its own as tickets. -/
theorem ownDraws_card (owned : TicketsOwned sched) (isReady : (sched.gtTable slot).state = .ready) :
    ((ownDraws sched slot).card : Int) = tickets (sched.gtTable slot) := by
  have live : (sched.gtTable slot).state ≠ .unused := by simp [isReady]
  obtain ⟨nonneg, ordered, -⟩ := owned.liveTickets.inRange slot live
  obtain ⟨width, -⟩ := owned.liveTickets.width slot live
  unfold ownDraws tickets
  rw [Nat.card_Icc, ← width]
  omega

/-- The own draws of a Ready slot are below `total_tickets`, and held by it alone. -/
theorem mem_ownDraws (owned : TicketsOwned sched) (isReady : (sched.gtTable slot).state = .ready) :
    draw ∈ ownDraws sched slot ↔
      draw ∈ Finset.range sched.totalTickets.toNat ∧ holdsTicket draw (sched.gtTable slot) := by
  have live : (sched.gtTable slot).state ≠ .unused := by simp [isReady]
  obtain ⟨nonneg, ordered, below⟩ := owned.liveTickets.inRange slot live
  unfold ownDraws holdsTicket
  rw [Finset.mem_Icc, Finset.mem_range]
  constructor
  · rintro ⟨atLeast, atMost⟩
    exact ⟨by omega, .inl isReady, by omega, by omega⟩
  · rintro ⟨-, -, atLeast, atMost⟩
    omega

/-- What `lottery` selects for a draw that a slot holds. -/
theorem lotteryChoice_of_holds (owned : TicketsOwned sched)
    (inRange : draw ∈ Finset.range sched.totalTickets.toNat)
    (holds : holdsTicket draw (sched.gtTable slot)) :
    lotteryChoice sched fuel draw = some slot := by
  obtain ⟨owns, runnable⟩ := (holdsTicket_iff ..).mp holds
  have follows := owned.followsOwner draw
  rw [owned.winningTicket inRange] at follows
  unfold lotteryChoice
  rw [follows.owner slot owns runnable fuel sched.gtCurrent]
  rfl

/-- What `lottery` selects for a stray draw. -/
theorem lotteryChoice_of_stray (owned : TicketsOwned sched)
    (fallsBack : (roundRobin sched.gtTable sched.gtCurrent fuel sched.gtCurrent).map
      Choice.thread = some next)
    (stray : draw ∈ strayDraws sched) : lotteryChoice sched fuel draw = some next := by
  obtain ⟨inRange, noneHolds⟩ := Finset.mem_filter.mp stray
  have follows := owned.followsOwner draw
  rw [owned.winningTicket inRange] at follows
  unfold lotteryChoice
  rw [follows.fallback, fallsBack]
  intro slot owns
  rw [← not_or]
  exact fun runnable => noneHolds slot ((holdsTicket_iff ..).mpr ⟨owns, runnable⟩)

/-- A Ready slot wins its own draws, and the stray ones if `round_robin` selects it. -/
theorem winningDraws_eq (owned : TicketsOwned sched)
    (isReady : (sched.gtTable slot).state = .ready)
    (fallsBack : (roundRobin sched.gtTable sched.gtCurrent fuel sched.gtCurrent).map
      Choice.thread = some next) :
    winningDraws sched fuel slot =
      ownDraws sched slot ∪ if next = slot then strayDraws sched else ∅ := by
  ext draw
  rw [Finset.mem_union, owned.mem_ownDraws isReady]
  unfold winningDraws
  rw [Finset.mem_filter]
  constructor
  · rintro ⟨inRange, wins⟩
    by_cases held : ∃ owner, holdsTicket draw (sched.gtTable owner)
    · obtain ⟨owner, holds⟩ := held
      rw [owned.lotteryChoice_of_holds inRange holds] at wins
      cases wins
      exact .inl ⟨inRange, holds⟩
    · have stray : draw ∈ strayDraws sched :=
        Finset.mem_filter.mpr ⟨inRange, fun owner holds => held ⟨owner, holds⟩⟩
      rw [owned.lotteryChoice_of_stray fallsBack stray] at wins
      cases wins
      rw [if_pos rfl]
      exact .inr stray
  · rintro (⟨inRange, holds⟩ | stray)
    · exact ⟨inRange, owned.lotteryChoice_of_holds inRange holds⟩
    · split at stray
      · rename_i isNext
        have inRange := (Finset.mem_filter.mp stray).1
        exact ⟨inRange, isNext ▸ owned.lotteryChoice_of_stray fallsBack stray⟩
      · cases stray

/-- The number of draws that select a Ready slot. -/
theorem winningDraws_card (owned : TicketsOwned sched)
    (isReady : (sched.gtTable slot).state = .ready)
    (fallsBack : (roundRobin sched.gtTable sched.gtCurrent fuel sched.gtCurrent).map
      Choice.thread = some next) :
    ((winningDraws sched fuel slot).card : Int) =
      tickets (sched.gtTable slot) + if next = slot then (strayDraws sched).card else 0 := by
  rw [owned.winningDraws_eq isReady fallsBack, ← owned.ownDraws_card isReady]
  split
  · have disjoint : Disjoint (ownDraws sched slot) (strayDraws sched) := by
      rw [Finset.disjoint_left]
      intro draw own stray
      exact (Finset.mem_filter.mp stray).2 slot ((owned.mem_ownDraws isReady).mp own).2
    rw [Finset.card_union_of_disjoint disjoint, Nat.cast_add]
  · rw [Finset.union_empty, Nat.cast_zero, add_zero]

/-- A Ready slot has a ticket. -/
theorem tickets_pos (owned : TicketsOwned sched)
    (isReady : (sched.gtTable slot).state = .ready) : 0 < tickets (sched.gtTable slot) := by
  have live : (sched.gtTable slot).state ≠ .unused := by simp [isReady]
  exact (owned.liveTickets.width slot live).2

end TicketsOwned

/-! ### Shares

A draw that no thread holds falls back on `round_robin`.  The draws a slot wins are therefore
its own tickets and, for the slot that the fallback chooses, the stray ones.
-/

/-- Extra draws of one side keep two shares in proportion only if there are none. -/
theorem skewed_iff {share other extra : Int} (positive : 0 < other) :
    (share + extra) * other = other * share ↔ extra = 0 := by
  rw [add_mul, mul_comm other share, add_eq_left, mul_eq_zero]
  exact or_iff_left positive.ne'

variable [NeZero N]

/-- In every state reached a Ready slot wins as many draws as it has tickets, and the
stray draws besides if `round_robin` selects it.  So the draws of two Ready slots are as
their tickets exactly if no draw is stray or `round_robin` selects neither. -/
theorem lottery_shares (algorithm : Algorithm) (clock : Nat → Timeval) (sched : Sched N)
    (reached : (scheduler algorithm).Reached PartialMachine.anyStep (gtInit clock) sched)
    {first second : Fin N} (firstReady : (sched.gtTable first).state = .ready)
    (secondReady : (sched.gtTable second).state = .ready) {fuel : Nat} (enough : N < fuel) :
    ∃ next, (roundRobin sched.gtTable sched.gtCurrent fuel sched.gtCurrent).map Choice.thread =
        some next ∧
      ((winningDraws sched fuel first).card : Int) =
        tickets (sched.gtTable first) + (if next = first then (strayDraws sched).card else 0) ∧
      ((winningDraws sched fuel second).card : Int) =
        tickets (sched.gtTable second) + (if next = second then (strayDraws sched).card else 0) ∧
      (Proportional sched fuel first second ↔
        first = second ∨ strayDraws sched = ∅ ∨ next ≠ first ∧ next ≠ second) := by
  have owned := ticketsOwned_of_reached reached
  have within : stepsTo sched.gtCurrent first < fuel := (stepsTo_le _ _).trans_lt enough
  obtain ⟨choice, chosen⟩ : ∃ choice,
      roundRobin sched.gtTable sched.gtCurrent fuel sched.gtCurrent = some choice :=
    roundRobin_of_ready firstReady within
  have fallsBack : (roundRobin sched.gtTable sched.gtCurrent fuel sched.gtCurrent).map
      Choice.thread = some choice.thread := congrArg (Option.map Choice.thread) chosen
  have firstWins := owned.winningDraws_card firstReady fallsBack
  have secondWins := owned.winningDraws_card secondReady fallsBack
  refine ⟨choice.thread, fallsBack, firstWins, secondWins, ?_⟩
  have noStray : ((strayDraws sched).card : Int) = 0 ↔ strayDraws sched = ∅ := by
    rw [Nat.cast_eq_zero, Finset.card_eq_zero]
  unfold Proportional
  by_cases same : first = second
  · rw [same]
    exact iff_of_true rfl (.inl rfl)
  · rw [firstWins, secondWins]
    by_cases isFirst : choice.thread = first
    · have notSecond : choice.thread ≠ second := fun isSecond => same (isFirst.symm.trans isSecond)
      rw [if_pos isFirst, if_neg notSecond, Nat.cast_zero, add_zero,
        skewed_iff (owned.tickets_pos secondReady), noStray]
      simp [same, isFirst]
    · by_cases isSecond : choice.thread = second
      · rw [if_neg isFirst, if_pos isSecond, Nat.cast_zero, add_zero, eq_comm,
          skewed_iff (owned.tickets_pos firstReady), noStray]
        simp [same, isSecond]
      · rw [if_neg isFirst, if_neg isSecond, Nat.cast_zero, add_zero, add_zero]
        exact iff_of_true (mul_comm _ _) (.inr (.inr ⟨isFirst, isSecond⟩))

/-- A thread of priority 5 has six draws beside the eleven of one of priority 0. -/
theorem lottery_shares_undisturbed : ∃ sched : Sched maxGThreads,
    ((sched.gtTable 1).priority = 0 ∧ (sched.gtTable 2).priority = 5) ∧
    Proportional sched 6 1 2 := by
  obtain ⟨sched, reached, ⟨firstReady, secondReady⟩, priorities, noStray⟩ :=
    PartialMachine.exists_reached_of_any
      (scheduler .lottery) PartialMachine.anyStep (gtInit fun _ => initTimeval)
      [(.gtCreate 0 (some 0x1000), stoppedClock 0), (.gtCreate 5 (some 0x500000), stoppedClock 0)]
      (fun sched : Sched maxGThreads =>
        ((sched.gtTable 1).state = .ready ∧ (sched.gtTable 2).state = .ready) ∧
        ((sched.gtTable 1).priority = 0 ∧ (sched.gtTable 2).priority = 5) ∧
        strayDraws sched = ∅)
      (by decide)
  obtain ⟨next, -, -, -, proportional⟩ :=
    lottery_shares .lottery _ sched reached firstReady secondReady (by decide : maxGThreads < 6)
  exact ⟨sched, priorities, proportional.mpr (.inr (.inl noStray))⟩

/-- Behind a Blocked thread `round_robin` selects slot 2, which so wins 22 draws where
slot 3 of the same priority wins 11. -/
theorem blocked_thread_skews_shares :
    ¬ ∀ (algorithm : Algorithm) (sched : Sched maxGThreads),
      (scheduler algorithm).Reached PartialMachine.anyStep (gtInit fun _ => initTimeval) sched →
      ∀ first second : Fin maxGThreads, (sched.gtTable first).state = .ready →
        (sched.gtTable second).state = .ready →
        ∀ fuel, maxGThreads < fuel → Proportional sched fuel first second := by
  intro claimed
  obtain ⟨sched, reached, firstReady, secondReady, skewed⟩ := PartialMachine.exists_reached_of_any
    (scheduler .lottery) PartialMachine.anyStep (gtInit fun _ => initTimeval)
    [(.semInit 0 0, stoppedClock 0), (.gtCreate 0 (some 0x1000), stoppedClock 0),
      (.gtCreate 0 (some 0x500000), stoppedClock 0), (.gtCreate 0 (some 0x900000), stoppedClock 0),
      (.schedule, stoppedClock 11), (.semWait 0, stoppedClock 0)]
    (fun sched : Sched maxGThreads => (sched.gtTable 2).state = .ready ∧
      (sched.gtTable 3).state = .ready ∧ ¬ Proportional sched 6 2 3)
    (by decide)
  exact skewed (claimed .lottery sched reached 2 3 firstReady secondReady 6 (by decide))

end Ivos.Scheduler
