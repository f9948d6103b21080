/-
Module: Ivos.Scheduler.Selectors
Purpose: The three selectors `round_robin`, `round_robin_prio` and `lottery`,
  and what every choice they return satisfies.
Trusted boundary: none
Main exports: Table, nextSlot, Choice, roundRobin, roundRobinPrio, lottery,
  getNextThread, getNextThread_sound, getNextThread_ne_current,
  getNextThread_total
-/
import Ivos.Scheduler.Thread
import Mathlib.Data.List.FinRange
import Mathlib.Logic.Function.Iterate

namespace Ivos.Scheduler

variable {N : Nat}

/-!
A selector scans the table with a pointer that goes round and round.  Each is a loop with a
bound on its tests: `none` is a scan that has not ended within the bound, and so the only
outcome of one that never ends.  What a selector writes while it scans is part of its
result.  `rand()` is an argument.
-/

/-- `gt_table`. -/
abbrev Table (N : Nat) := Fin N → Gt

/-- `++p`, rotating to the beginning at the end of the table. -/
def nextSlot (slot : Fin N) : Fin N :=
  if h : slot.val + 1 < N then ⟨slot.val + 1, h⟩ else ⟨0, Nat.zero_lt_of_lt slot.isLt⟩

/-- What a selector hands back: its return value, the pointer it leaves in
`*thread`, and the table (round robin with priorities writes skip counts). -/
structure Choice (N : Nat) where
  found : Bool
  thread : Fin N
  gtTable : Table N

/-- `set_scheduling_algorithm`'s three arguments. -/
inductive Algorithm where
  | roundRobin
  | roundRobinPrio
  | lottery
deriving Repr, DecidableEq

/-- `round_robin`, with a bound on the number of loop tests. -/
def roundRobin (gtTable : Table N) (gtCurrent : Fin N) : Nat → Fin N → Option (Choice N)
  | 0, _ => none
  | fuel + 1, thread =>
      if (gtTable thread).state = .ready then some ⟨true, thread, gtTable⟩
      else
        let thread := nextSlot thread
        if (gtTable thread).state = .blocked then roundRobin gtTable gtCurrent fuel thread
        else if thread = gtCurrent then some ⟨true, thread, gtTable⟩
        else roundRobin gtTable gtCurrent fuel thread

/-- The test `round_robin_prio` makes on a slot. -/
def prioEligible (thread : Gt) : Prop :=
  thread.state = .ready ∧ thread.priority - thread.skipCount ≤ maxPriority

instance (thread : Gt) : Decidable (prioEligible thread) :=
  inferInstanceAs (Decidable (_ ∧ _))

/-- `round_robin_prio`, with a bound on the number of iterations. -/
def roundRobinPrio (gtCurrent : Fin N) : Nat → Table N → Fin N → Option (Choice N)
  | 0, _, _ => none
  | fuel + 1, gtTable, thread =>
      let thread := nextSlot thread
      if (gtTable thread).state = .blocked then roundRobinPrio gtCurrent fuel gtTable thread
      else if prioEligible (gtTable thread) then
        some ⟨true, thread,
          Function.update gtTable thread { gtTable thread with skipCount := 0 }⟩
      else
        let gtTable := Function.update gtTable thread
          { gtTable thread with skipCount := (gtTable thread).skipCount + 1 }
        if thread = gtCurrent then some ⟨true, thread, gtTable⟩
        else roundRobinPrio gtCurrent fuel gtTable thread

/-- The test `lottery` makes on a slot it does not skip as Blocked. -/
def holdsTicket (winningTicket : Int) (thread : Gt) : Prop :=
  (thread.state = .ready ∨ thread.state = .running) ∧
    winningTicket ≥ thread.ticketsLo ∧ winningTicket ≤ thread.ticketsHi

instance (winningTicket : Int) (thread : Gt) : Decidable (holdsTicket winningTicket thread) :=
  inferInstanceAs (Decidable (_ ∧ _))

/-- The `for` loop of `lottery`. -/
def ticketOwner (gtTable : Table N) (winningTicket : Int) : Option (Fin N) :=
  (List.finRange N).find? fun p =>
    (gtTable p).state ≠ .blocked ∧ holdsTicket winningTicket (gtTable p)

/-- `lottery`; `draw` is the value of `rand()`. -/
def lottery (gtTable : Table N) (gtCurrent : Fin N) (totalTickets : Int) (draw fuel : Nat)
    (thread : Fin N) : Option (Choice N) :=
  let winningTicket := (draw : Int).tmod totalTickets
  match ticketOwner gtTable winningTicket with
  | some p => some ⟨true, p, gtTable⟩
  | none => roundRobin gtTable gtCurrent fuel thread

/-- The call through the function pointer `get_next_thread`. -/
def getNextThread (algorithm : Algorithm) (gtTable : Table N) (gtCurrent : Fin N)
    (totalTickets : Int) (draw fuel : Nat) (thread : Fin N) : Option (Choice N) :=
  match algorithm with
  | .roundRobin => roundRobin gtTable gtCurrent fuel thread
  | .roundRobinPrio => roundRobinPrio gtCurrent fuel gtTable thread
  | .lottery => lottery gtTable gtCurrent totalTickets draw fuel thread

/-! ### The cyclic order of the table -/

theorem nextSlot_val (slot : Fin N) : (nextSlot slot).val = (slot.val + 1) % N := by
  unfold nextSlot
  split
  · rename_i inside
    exact (Nat.mod_eq_of_lt inside).symm
  · rename_i outside
    have last : slot.val + 1 = N := by omega
    simp [last]

theorem nextSlot_iterate_val (slot : Fin N) (count : Nat) :
    (nextSlot^[count] slot).val = (slot.val + count) % N := by
  induction count with
  | zero => exact (Nat.mod_eq_of_lt slot.isLt).symm
  | succ count inductionHypothesis =>
      rw [Function.iterate_succ_apply', nextSlot_val, inductionHypothesis, Nat.mod_add_mod,
        Nat.add_assoc]

/-- One lap of the table meets every slot. -/
theorem exists_iterate_eq (slot target : Fin N) :
    ∃ count, 0 < count ∧ count ≤ N ∧ nextSlot^[count] slot = target := by
  have slotLt := slot.isLt
  have targetLt := target.isLt
  by_cases later : slot.val < target.val
  · refine ⟨target.val - slot.val, by omega, by omega, Fin.ext ?_⟩
    rw [nextSlot_iterate_val, Nat.add_sub_cancel' (Nat.le_of_lt later),
      Nat.mod_eq_of_lt targetLt]
  · refine ⟨target.val + N - slot.val, by omega, by omega, Fin.ext ?_⟩
    rw [nextSlot_iterate_val, Nat.add_sub_cancel' (by omega), Nat.add_mod_right,
      Nat.mod_eq_of_lt targetLt]

/-- The scan comes back to its start only after a whole lap. -/
theorem lap_of_iterate_eq_self {slot : Fin N} {count : Nat} (positive : 0 < count)
    (back : nextSlot^[count] slot = slot) : N ≤ count := by
  have values := congrArg Fin.val back
  rw [nextSlot_iterate_val] at values
  have slotLt := slot.isLt
  by_contra short
  by_cases wraps : slot.val + count < N
  · rw [Nat.mod_eq_of_lt wraps] at values
    omega
  · rw [Nat.mod_eq_sub_mod (by omega), Nat.mod_eq_of_lt (by omega)] at values
    omega

/-! ### What a choice satisfies -/

/-- Facts common to the three selectors: a choice is always reported as found,
it is Ready or the current slot, it is never Blocked, and at most skip counts
have been written. -/
structure Choice.Sound (choice : Choice N) (gtTable : Table N) (gtCurrent : Fin N) : Prop where
  found : choice.found = true
  notBlocked : (gtTable choice.thread).state ≠ .blocked
  readyOrCurrent : (gtTable choice.thread).state = .ready ∨
    (gtTable choice.thread).state = .running ∨ choice.thread = gtCurrent
  sameStates : ∀ slot, (choice.gtTable slot).state = (gtTable slot).state

theorem roundRobin_sound {gtTable : Table N} {gtCurrent : Fin N} {fuel : Nat} {thread : Fin N}
    {choice : Choice N} (chosen : roundRobin gtTable gtCurrent fuel thread = some choice) :
    choice.Sound gtTable gtCurrent := by
  fun_induction roundRobin gtTable gtCurrent fuel thread with
  | case1 => cases chosen
  | case2 fuel thread isReady =>
      cases chosen
      exact ⟨rfl, by simp [isReady], .inl isReady, fun _ => rfl⟩
  | case3 _ _ _ _ _ inductionHypothesis => exact inductionHypothesis chosen
  | case4 fuel thread notReady next notBlocked isCurrent =>
      cases chosen
      exact ⟨rfl, notBlocked, .inr (.inr isCurrent), fun _ => rfl⟩
  | case5 _ _ _ _ _ _ inductionHypothesis => exact inductionHypothesis chosen

/-- Rewriting one skip count changes no state. -/
theorem update_skipCount_state (gtTable : Table N) (thread slot : Fin N) (skipCount : Int) :
    (Function.update gtTable thread { gtTable thread with skipCount := skipCount } slot).state =
      (gtTable slot).state := by
  by_cases same : slot = thread
  · subst same
    simp
  · simp [same]

theorem roundRobinPrio_sound {gtTable : Table N} {gtCurrent : Fin N} {fuel : Nat}
    {thread : Fin N} {choice : Choice N}
    (chosen : roundRobinPrio gtCurrent fuel gtTable thread = some choice) :
    choice.Sound gtTable gtCurrent := by
  fun_induction roundRobinPrio gtCurrent fuel gtTable thread with
  | case1 => cases chosen
  | case2 _ _ _ _ _ inductionHypothesis => exact inductionHypothesis chosen
  | case3 fuel gtTable thread next notBlocked eligible =>
      cases chosen
      exact ⟨rfl, notBlocked, .inl eligible.1, fun slot => update_skipCount_state ..⟩
  | case4 fuel gtTable thread next notBlocked notEligible bumped isCurrent =>
      cases chosen
      exact ⟨rfl, notBlocked, .inr (.inr isCurrent), fun slot => update_skipCount_state ..⟩
  | case5 fuel gtTable thread next notBlocked notEligible bumped notCurrent inductionHypothesis =>
      have sound := inductionHypothesis chosen
      have same (slot : Fin N) : (bumped slot).state = (gtTable slot).state :=
        update_skipCount_state ..
      exact ⟨sound.found, same _ ▸ sound.notBlocked, same _ ▸ sound.readyOrCurrent,
        fun slot => (sound.sameStates slot).trans (same slot)⟩

theorem ticketOwner_holds {gtTable : Table N} {winningTicket : Int} {owner : Fin N}
    (drawn : ticketOwner gtTable winningTicket = some owner) :
    (gtTable owner).state ≠ .blocked ∧ holdsTicket winningTicket (gtTable owner) := by
  simpa using List.find?_some drawn

theorem lottery_sound {gtTable : Table N} {gtCurrent : Fin N} {totalTickets : Int}
    {draw fuel : Nat} {thread : Fin N} {choice : Choice N}
    (chosen : lottery gtTable gtCurrent totalTickets draw fuel thread = some choice) :
    choice.Sound gtTable gtCurrent := by
  unfold lottery at chosen
  dsimp only at chosen
  split at chosen
  · rename_i owner drawn
    cases chosen
    obtain ⟨notBlocked, readyOrRunning, -⟩ := ticketOwner_holds drawn
    exact ⟨rfl, notBlocked, readyOrRunning.imp_right .inl, fun _ => rfl⟩
  · exact roundRobin_sound chosen

theorem getNextThread_sound {algorithm : Algorithm} {gtTable : Table N} {gtCurrent : Fin N}
    {totalTickets : Int} {draw fuel : Nat} {thread : Fin N} {choice : Choice N}
    (chosen : getNextThread algorithm gtTable gtCurrent totalTickets draw fuel thread =
      some choice) : choice.Sound gtTable gtCurrent := by
  cases algorithm with
  | roundRobin => exact roundRobin_sound chosen
  | roundRobinPrio => exact roundRobinPrio_sound chosen
  | lottery => exact lottery_sound chosen

/-! ### What the selectors write -/

/-- No field but skip counts differs. -/
def OnlySkips (before after : Table N) : Prop :=
  ∀ slot, ∃ skipCount, after slot = { before slot with skipCount := skipCount }

theorem OnlySkips.refl (gtTable : Table N) : OnlySkips gtTable gtTable :=
  fun slot => ⟨(gtTable slot).skipCount, rfl⟩

theorem OnlySkips.trans {first second third : Table N} (one : OnlySkips first second)
    (two : OnlySkips second third) : OnlySkips first third := by
  intro slot
  obtain ⟨_, isSecond⟩ := one slot
  obtain ⟨skipCount, isThird⟩ := two slot
  exact ⟨skipCount, by rw [isThird, isSecond]⟩

theorem OnlySkips.update (gtTable : Table N) (thread : Fin N) (skipCount : Int) :
    OnlySkips gtTable
      (Function.update gtTable thread { gtTable thread with skipCount := skipCount }) := by
  intro slot
  by_cases same : slot = thread
  · subst same
    exact ⟨skipCount, Function.update_self ..⟩
  · exact ⟨(gtTable slot).skipCount, Function.update_of_ne same ..⟩

theorem roundRobin_gtTable {gtTable : Table N} {gtCurrent : Fin N} {fuel : Nat} {thread : Fin N}
    {choice : Choice N} (chosen : roundRobin gtTable gtCurrent fuel thread = some choice) :
    choice.gtTable = gtTable := by
  fun_induction roundRobin gtTable gtCurrent fuel thread with
  | case1 => cases chosen
  | case2 | case4 =>
      cases chosen
      rfl
  | case3 _ _ _ _ _ inductionHypothesis | case5 _ _ _ _ _ _ inductionHypothesis =>
      exact inductionHypothesis chosen

theorem lottery_gtTable {gtTable : Table N} {gtCurrent : Fin N} {totalTickets : Int}
    {draw fuel : Nat} {thread : Fin N} {choice : Choice N}
    (chosen : lottery gtTable gtCurrent totalTickets draw fuel thread = some choice) :
    choice.gtTable = gtTable := by
  unfold lottery at chosen
  dsimp only at chosen
  split at chosen
  · cases chosen
    rfl
  · exact roundRobin_gtTable chosen

theorem roundRobinPrio_onlySkips {gtTable : Table N} {gtCurrent : Fin N} {fuel : Nat}
    {thread : Fin N} {choice : Choice N}
    (chosen : roundRobinPrio gtCurrent fuel gtTable thread = some choice) :
    OnlySkips gtTable choice.gtTable := by
  fun_induction roundRobinPrio gtCurrent fuel gtTable thread with
  | case1 => cases chosen
  | case2 _ _ _ _ _ inductionHypothesis => exact inductionHypothesis chosen
  | case3 | case4 =>
      cases chosen
      exact .update _ _ _
  | case5 fuel gtTable thread next notBlocked notEligible bumped other inductionHypothesis =>
      exact (OnlySkips.update gtTable next _).trans (inductionHypothesis chosen)

/-- The selectors write skip counts only. -/
theorem getNextThread_onlySkips {algorithm : Algorithm} {gtTable : Table N} {gtCurrent : Fin N}
    {totalTickets : Int} {draw fuel : Nat} {thread : Fin N} {choice : Choice N}
    (chosen : getNextThread algorithm gtTable gtCurrent totalTickets draw fuel thread =
      some choice) : OnlySkips gtTable choice.gtTable := by
  cases algorithm with
  | roundRobin => exact roundRobin_gtTable chosen ▸ .refl gtTable
  | roundRobinPrio => exact roundRobinPrio_onlySkips chosen
  | lottery => exact lottery_gtTable chosen ▸ .refl gtTable

/-! ### When the fallback to the current slot is not taken

A selector that comes round to the current slot gives it back whatever its state, unless it is
Blocked.  As long as some other slot can be chosen by its state, that does not happen.
-/

/-- A slot the given algorithm takes as soon as its scan meets it. -/
def Eligible (algorithm : Algorithm) (thread : Gt) : Prop :=
  match algorithm with
  | .roundRobin | .lottery => thread.state = .ready
  | .roundRobinPrio => prioEligible thread

instance (thread : Gt) : (algorithm : Algorithm) → Decidable (Eligible algorithm thread)
  | .roundRobin | .lottery => inferInstanceAs (Decidable (_ = _))
  | .roundRobinPrio => inferInstanceAs (Decidable (prioEligible thread))

/-- `round_robin` stops at the latest at the first Ready slot after its start. -/
theorem roundRobin_stops {gtTable : Table N} {gtCurrent : Fin N} {fuel : Nat}
    {thread target : Fin N} {choice : Choice N} (targetReady : (gtTable target).state = .ready)
    (chosen : roundRobin gtTable gtCurrent fuel thread = some choice) :
    ∃ count, choice.thread = nextSlot^[count] thread ∧
      (count = 0 → (gtTable choice.thread).state = .ready) ∧
      ∀ earlier, earlier < count → nextSlot^[earlier] thread ≠ target := by
  fun_induction roundRobin gtTable gtCurrent fuel thread with
  | case1 => cases chosen
  | case2 fuel thread isReady =>
      cases chosen
      exact ⟨0, rfl, fun _ => isReady, by simp⟩
  | case3 fuel thread notReady next isBlocked inductionHypothesis
  | case5 fuel thread notReady next notBlocked notCurrent inductionHypothesis =>
      obtain ⟨count, reached, -, skipped⟩ := inductionHypothesis chosen
      refine ⟨count + 1, reached, by simp, fun earlier below => ?_⟩
      cases earlier with
      | zero =>
          rintro rfl
          exact notReady targetReady
      | succ earlier => exact skipped earlier (by omega)
  | case4 fuel thread notReady next notBlocked isCurrent =>
      cases chosen
      refine ⟨1, rfl, by simp, fun earlier below => ?_⟩
      obtain rfl : earlier = 0 := by omega
      rintro rfl
      exact notReady targetReady

/-- `round_robin_prio` stops at the latest at the first eligible slot after its
start. -/
theorem roundRobinPrio_stops {gtTable : Table N} {gtCurrent : Fin N} {fuel : Nat}
    {thread target : Fin N} {choice : Choice N} (eligible : prioEligible (gtTable target))
    (chosen : roundRobinPrio gtCurrent fuel gtTable thread = some choice) :
    ∃ count, 0 < count ∧ choice.thread = nextSlot^[count] thread ∧
      ∀ earlier, 0 < earlier → earlier < count → nextSlot^[earlier] thread ≠ target := by
  fun_induction roundRobinPrio gtCurrent fuel gtTable thread with
  | case1 => cases chosen
  | case2 fuel gtTable thread next isBlocked inductionHypothesis =>
      obtain ⟨count, positive, reached, skipped⟩ := inductionHypothesis eligible chosen
      refine ⟨count + 1, by omega, reached, fun earlier earlierPositive below => ?_⟩
      obtain ⟨earlier, rfl⟩ := Nat.exists_eq_add_of_lt earlierPositive
      rw [Nat.zero_add, Function.iterate_succ_apply]
      by_cases first : earlier = 0
      · subst first
        rintro rfl
        simp [prioEligible, next] at *
        grind
      · exact skipped earlier (by omega) (by omega)
  | case3 fuel gtTable thread next notBlocked nextEligible =>
      cases chosen
      exact ⟨1, by omega, rfl, fun earlier positive below => by omega⟩
  | case4 fuel gtTable thread next notBlocked notEligible bumped isCurrent =>
      cases chosen
      exact ⟨1, by omega, rfl, fun earlier positive below => by omega⟩
  | case5 fuel gtTable thread next notBlocked notEligible bumped notCurrent inductionHypothesis =>
      have other : target ≠ next := by
        rintro rfl
        exact notEligible eligible
      have stillEligible : prioEligible (bumped target) := by
        simpa [bumped, other] using eligible
      obtain ⟨count, positive, reached, skipped⟩ := inductionHypothesis stillEligible chosen
      refine ⟨count + 1, by omega, reached, fun earlier earlierPositive below => ?_⟩
      obtain ⟨earlier, rfl⟩ := Nat.exists_eq_add_of_lt earlierPositive
      rw [Nat.zero_add, Function.iterate_succ_apply]
      by_cases first : earlier = 0
      · subst first
        exact other.symm
      · exact skipped earlier (by omega) (by omega)

/-- With another eligible slot in the table, a current slot that is neither
Ready nor Running is not chosen. -/
theorem getNextThread_ne_current {algorithm : Algorithm} {gtTable : Table N}
    {gtCurrent target : Fin N} {totalTickets : Int} {draw fuel : Nat} {choice : Choice N}
    (currentUnused : (gtTable gtCurrent).state = .unused)
    (eligible : Eligible algorithm (gtTable target))
    (chosen : getNextThread algorithm gtTable gtCurrent totalTickets draw fuel gtCurrent =
      some choice) : choice.thread ≠ gtCurrent := by
  have targetNe : target ≠ gtCurrent := by
    rintro rfl
    cases algorithm <;> simp [Eligible, prioEligible, currentUnused] at eligible
  -- A scan that ends at its start has passed every other slot on the way.
  have wholeLap {count : Nat} (positive : 0 < count)
      (skipped : ∀ earlier, 0 < earlier → earlier < count →
        nextSlot^[earlier] gtCurrent ≠ target) : nextSlot^[count] gtCurrent ≠ gtCurrent := by
    intro back
    have lap := lap_of_iterate_eq_self positive back
    obtain ⟨meeting, meetingPositive, meetingLe, meets⟩ := exists_iterate_eq gtCurrent target
    by_cases inside : meeting < count
    · exact skipped meeting meetingPositive inside meets
    · obtain rfl : meeting = count := by omega
      exact targetNe (meets.symm.trans back)
  have fromRoundRobin {result : Choice N} (targetReady : (gtTable target).state = .ready)
      (ran : roundRobin gtTable gtCurrent fuel gtCurrent = some result) :
      result.thread ≠ gtCurrent := by
    obtain ⟨count, reached, atStart, skipped⟩ := roundRobin_stops targetReady ran
    by_cases started : count = 0
    · intro same
      have isReady := atStart started
      rw [same, currentUnused] at isReady
      cases isReady
    · rw [reached]
      exact wholeLap (by omega) fun earlier _ below => skipped earlier below
  cases algorithm with
  | roundRobin => exact fromRoundRobin eligible chosen
  | roundRobinPrio =>
      obtain ⟨count, positive, reached, skipped⟩ := roundRobinPrio_stops eligible chosen
      rw [reached]
      exact wholeLap positive skipped
  | lottery =>
      simp only [getNextThread, lottery] at chosen
      split at chosen
      · rename_i owner drawn
        cases chosen
        obtain ⟨-, readyOrRunning, -⟩ := ticketOwner_holds drawn
        rintro rfl
        simp [currentUnused] at readyOrRunning
      · exact fromRoundRobin eligible chosen

/-! ### One lap is enough -/

/-- The scan ends at the latest when it comes to a current slot that it does not
skip as Blocked. -/
theorem roundRobin_total {gtTable : Table N} {gtCurrent : Fin N}
    (notBlocked : (gtTable gtCurrent).state ≠ .blocked) {fuel count : Nat} {thread : Fin N}
    (positive : 0 < count) (enough : count ≤ fuel) (meets : nextSlot^[count] thread = gtCurrent) :
    ∃ choice, roundRobin gtTable gtCurrent fuel thread = some choice := by
  induction fuel generalizing count thread with
  | zero => omega
  | succ fuel inductionHypothesis =>
      obtain ⟨count, rfl⟩ := Nat.exists_eq_add_of_lt positive
      rw [Nat.zero_add, Function.iterate_succ_apply] at meets
      have later (other : nextSlot thread ≠ gtCurrent) :
          ∃ choice, roundRobin gtTable gtCurrent fuel (nextSlot thread) = some choice := by
        apply inductionHypothesis (Nat.pos_of_ne_zero ?_) (by omega) meets
        rintro rfl
        exact other meets
      unfold roundRobin
      split
      · exact ⟨_, rfl⟩
      · dsimp only
        split
        · rename_i isBlocked
          exact later fun isCurrent => notBlocked (isCurrent ▸ isBlocked)
        · split
          · exact ⟨_, rfl⟩
          · rename_i other
            exact later other

theorem roundRobinPrio_total {gtTable : Table N} {gtCurrent : Fin N}
    (notBlocked : (gtTable gtCurrent).state ≠ .blocked) {fuel count : Nat} {thread : Fin N}
    (positive : 0 < count) (enough : count ≤ fuel) (meets : nextSlot^[count] thread = gtCurrent) :
    ∃ choice, roundRobinPrio gtCurrent fuel gtTable thread = some choice := by
  induction fuel generalizing count thread gtTable with
  | zero => omega
  | succ fuel inductionHypothesis =>
      obtain ⟨count, rfl⟩ := Nat.exists_eq_add_of_lt positive
      rw [Nat.zero_add, Function.iterate_succ_apply] at meets
      have later {gtTable : Table N} (notBlocked : (gtTable gtCurrent).state ≠ .blocked)
          (other : nextSlot thread ≠ gtCurrent) :
          ∃ choice, roundRobinPrio gtCurrent fuel gtTable (nextSlot thread) = some choice := by
        apply inductionHypothesis notBlocked (Nat.pos_of_ne_zero ?_) (by omega) meets
        rintro rfl
        exact other meets
      unfold roundRobinPrio
      dsimp only
      split
      · rename_i isBlocked
        exact later notBlocked fun isCurrent => notBlocked (isCurrent ▸ isBlocked)
      · split
        · exact ⟨_, rfl⟩
        · split
          · exact ⟨_, rfl⟩
          · rename_i other
            apply later _ other
            rw [update_skipCount_state]
            exact notBlocked

/-- As many loop tests as there are slots are enough, unless the current slot is
Blocked. -/
theorem getNextThread_total (algorithm : Algorithm) {gtTable : Table N} {gtCurrent : Fin N}
    (notBlocked : (gtTable gtCurrent).state ≠ .blocked) (totalTickets : Int) (draw : Nat)
    {fuel : Nat} (enough : N ≤ fuel) :
    ∃ choice, getNextThread algorithm gtTable gtCurrent totalTickets draw fuel gtCurrent =
      some choice := by
  obtain ⟨count, positive, oneLap, meets⟩ := exists_iterate_eq gtCurrent gtCurrent
  have fromRoundRobin := roundRobin_total notBlocked positive (oneLap.trans enough) meets
  cases algorithm with
  | roundRobin => exact fromRoundRobin
  | roundRobinPrio => exact roundRobinPrio_total notBlocked positive (oneLap.trans enough) meets
  | lottery =>
      unfold getNextThread lottery
      dsimp only
      split
      · exact ⟨_, rfl⟩
      · exact fromRoundRobin

end Ivos.Scheduler
