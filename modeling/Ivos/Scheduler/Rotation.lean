/-
Module: Ivos.Scheduler.Rotation
Purpose: How far the circular scans of the selectors have to go, and when they end.
Trusted boundary: none
Main exports: stepsTo, passesLeft, patience, prioPassed, roundRobin_toward,
  roundRobinPrio_toward, roundRobin_of_ready, roundRobinPrio_of_ready,
  selector_terminates_iff
-/
import Ivos.Scheduler.Counters

namespace Ivos.Scheduler

variable {N : Nat}

/-! ### Steps around the table -/

/-- How often `++p` is executed until a scan that stands at `thread` stands at
`slot`; from the slot itself that is a whole lap. -/
def stepsTo (thread slot : Fin N) : Nat :=
  if thread.val < slot.val then slot.val - thread.val else slot.val + N - thread.val

theorem stepsTo_pos (thread slot : Fin N) : 0 < stepsTo thread slot := by
  have inside := thread.isLt
  unfold stepsTo
  split
  · omega
  · omega

theorem stepsTo_le (thread slot : Fin N) : stepsTo thread slot ≤ N := by
  have inside := slot.isLt
  unfold stepsTo
  split
  · omega
  · omega

@[simp] theorem stepsTo_self (slot : Fin N) : stepsTo slot slot = N := by
  unfold stepsTo
  rw [if_neg (Nat.lt_irrefl _)]
  omega

theorem stepsTo_lt {thread slot : Fin N} (other : slot ≠ thread) : stepsTo thread slot < N := by
  have different : slot.val ≠ thread.val := fun same => other (Fin.ext same)
  have inside := slot.isLt
  unfold stepsTo
  split
  · omega
  · omega

/-- The scan comes to the slot. -/
theorem stepsTo_of_next {thread slot : Fin N} (next : nextSlot thread = slot) :
    stepsTo thread slot = 1 := by
  subst next
  have inside := thread.isLt
  unfold stepsTo nextSlot
  split
  · simp
  · simp
    omega

/-- The scan comes closer to the slot. -/
theorem stepsTo_next {thread slot : Fin N} (other : nextSlot thread ≠ slot) :
    stepsTo thread slot = stepsTo (nextSlot thread) slot + 1 := by
  have inside := thread.isLt
  have slotInside := slot.isLt
  have different : (nextSlot thread).val ≠ slot.val := fun same => other (Fin.ext same)
  unfold stepsTo
  by_cases within : thread.val + 1 < N
  · have value : (nextSlot thread).val = thread.val + 1 := by simp [nextSlot, within]
    rw [value] at different ⊢
    split
    · rw [if_pos (by omega)]
      omega
    · rw [if_neg (by omega)]
      omega
  · have value : (nextSlot thread).val = 0 := by simp [nextSlot, within]
    rw [value] at different ⊢
    rw [if_neg (by omega), if_pos (by omega)]
    omega

/-! ### The scan of `round_robin` -/

/-- Towards a Ready slot `round_robin` goes no further than to it. -/
theorem roundRobin_toward {gtTable : Table N} {gtCurrent target : Fin N} {fuel : Nat}
    {thread : Fin N} {choice : Choice N} (isReady : (gtTable target).state = .ready)
    (notReady : (gtTable thread).state ≠ .ready)
    (chosen : roundRobin gtTable gtCurrent fuel thread = some choice)
    (other : choice.thread ≠ target) :
    stepsTo choice.thread target < stepsTo thread target := by
  fun_induction roundRobin gtTable gtCurrent fuel thread with
  | case1 => cases chosen
  | case2 fuel thread startReady => exact absurd startReady notReady
  | case3 fuel thread _ next isBlocked inductionHypothesis =>
      have elsewhere : next ≠ target := by
        rintro rfl
        simp [isReady] at isBlocked
      have closer := inductionHypothesis (by simp [isBlocked]) chosen
      have step : stepsTo thread target = stepsTo next target + 1 := stepsTo_next elsewhere
      omega
  | case4 fuel thread _ next notBlocked isCurrent =>
      cases chosen
      have step : stepsTo thread target = stepsTo next target + 1 := stepsTo_next other
      dsimp only
      omega
  | case5 fuel thread _ next notBlocked notCurrent inductionHypothesis =>
      by_cases nextReady : (gtTable next).state = .ready
      · -- The next test takes this slot.
        cases fuel with
        | zero => cases chosen
        | succ fuel =>
            simp only [roundRobin, nextReady, if_true] at chosen
            cases chosen
            have step : stepsTo thread target = stepsTo next target + 1 := stepsTo_next other
            dsimp only
            omega
      · have elsewhere : next ≠ target := by
          rintro rfl
          exact nextReady isReady
        have closer := inductionHypothesis nextReady chosen
        have step : stepsTo thread target = stepsTo next target + 1 := stepsTo_next elsewhere
        omega

/-- A Ready slot ends the scan of `round_robin`. -/
theorem roundRobin_of_ready {gtTable : Table N} {gtCurrent target : Fin N} {fuel : Nat}
    {thread : Fin N} (isReady : (gtTable target).state = .ready)
    (enough : stepsTo thread target < fuel) :
    ∃ choice, roundRobin gtTable gtCurrent fuel thread = some choice := by
  induction fuel generalizing thread with
  | zero => cases enough
  | succ fuel inductionHypothesis =>
      unfold roundRobin
      dsimp only
      by_cases threadReady : (gtTable thread).state = .ready
      · rw [if_pos threadReady]
        exact ⟨_, rfl⟩
      · rw [if_neg threadReady]
        have later : ∃ choice, roundRobin gtTable gtCurrent fuel (nextSlot thread) =
            some choice := by
          by_cases arrives : nextSlot thread = target
          · have step := stepsTo_of_next arrives
            obtain ⟨fuel, rfl⟩ : ∃ more, fuel = more + 1 := ⟨fuel - 1, by omega⟩
            exact ⟨_, if_pos (arrives ▸ isReady)⟩
          · have step := stepsTo_next arrives
            exact inductionHypothesis (by omega)
        split
        · exact later
        · split
          · exact ⟨_, rfl⟩
          · exact later

/-! ### The scan of `round_robin_prio` -/

/-- How often the scan still passes over a Ready slot. -/
def passesLeft (thread : Gt) : Nat :=
  (thread.priority - thread.skipCount - maxPriority).toNat

/-- How many slots the scan still meets until it takes the target, at most. -/
def patience (gtTable : Table N) (thread target : Fin N) : Nat :=
  passesLeft (gtTable target) * N + stepsTo thread target

/-- The slots whose skip count the scan of `round_robin_prio` raises, in order. -/
def prioPassed (gtCurrent : Fin N) : Nat → Table N → Fin N → List (Fin N)
  | 0, _, _ => []
  | fuel + 1, gtTable, thread =>
      let thread := nextSlot thread
      if (gtTable thread).state = .blocked then prioPassed gtCurrent fuel gtTable thread
      else if prioEligible (gtTable thread) then []
      else
        let gtTable := Function.update gtTable thread
          { gtTable thread with skipCount := (gtTable thread).skipCount + 1 }
        thread :: if thread = gtCurrent then [] else prioPassed gtCurrent fuel gtTable thread

theorem prioEligible_iff (thread : Gt) :
    prioEligible thread ↔ thread.state = .ready ∧ passesLeft thread = 0 := by
  unfold prioEligible passesLeft
  rw [Int.toNat_eq_zero]
  refine and_congr_right fun _ => ?_
  omega

/-- Passing over a slot uses up one pass. -/
theorem passesLeft_bump {thread : Gt} (isReady : thread.state = .ready)
    (notEligible : ¬ prioEligible thread) :
    passesLeft (passOver thread) + 1 = passesLeft thread := by
  rw [prioEligible_iff] at notEligible
  have some : passesLeft thread ≠ 0 := fun none => notEligible ⟨isReady, none⟩
  unfold passesLeft passOver at *
  dsimp only
  omega

/-- What a scan towards a Ready slot does to it, having passed over it `passes`
times. -/
structure PrioAdvance (gtTable : Table N) (thread target : Fin N) (choice : Choice N)
    (passes : Nat) : Prop where
  affordable : passes ≤ passesLeft (gtTable target)
  spent : choice.thread ≠ target →
    passesLeft (choice.gtTable target) + passes = passesLeft (gtTable target)
  closer : choice.thread ≠ target →
    patience choice.gtTable choice.thread target < patience gtTable thread target

/-- The scan settles on the next slot. -/
theorem PrioAdvance.single {gtTable : Table N} {thread target : Fin N} (update : Gt → Gt)
    {passed : List (Fin N)} (none : passed.count target = 0) :
    PrioAdvance gtTable thread target
      ⟨true, nextSlot thread, gtTable.modify (nextSlot thread) update⟩ (passed.count target) := by
  rw [none]
  refine ⟨Nat.zero_le _, fun other => ?_, fun other => ?_⟩
  · exact congrArg passesLeft (Table.modify_of_ne _ (Ne.symm other) _)
  · unfold patience
    dsimp only at other ⊢
    rw [Table.modify_of_ne _ (Ne.symm other), stepsTo_next other]
    exact Nat.lt_succ_self _

/-- Another slot met first. -/
theorem PrioAdvance.elsewhere {gtTable next : Table N} {thread target : Fin N}
    {choice : Choice N} {passes : Nat} (other : nextSlot thread ≠ target)
    (same : next target = gtTable target)
    (advance : PrioAdvance next (nextSlot thread) target choice passes) :
    PrioAdvance gtTable thread target choice passes := by
  obtain ⟨affordable, spent, closer⟩ := advance
  unfold patience at closer
  rw [same] at affordable spent closer
  refine ⟨affordable, spent, fun away => ?_⟩
  unfold patience
  rw [stepsTo_next other]
  exact (closer away).trans_le (Nat.le_succ _)

/-- The target itself passed over. -/
theorem PrioAdvance.again {gtTable : Table N} {thread target : Fin N} {choice : Choice N}
    {passes : Nat} (isReady : (gtTable target).state = .ready)
    (notEligible : ¬ prioEligible (gtTable target))
    (advance : PrioAdvance (gtTable.modify target passOver) target target choice passes) :
    PrioAdvance gtTable thread target choice (passes + 1) := by
  have used := passesLeft_bump isReady notEligible
  obtain ⟨affordable, spent, closer⟩ := advance
  unfold patience at closer
  rw [Table.modify_self] at affordable spent closer
  refine ⟨by omega, fun away => ?_, fun away => ?_⟩
  · have paid := spent away
    omega
  · have nearer := closer away
    rw [stepsTo_self, ← Nat.succ_mul, Nat.succ_eq_add_one, used] at nearer
    exact nearer.trans_le (Nat.le_add_right _ _)

/-- Towards a Ready slot the scan of `round_robin_prio` spends the passes of the slot
and comes closer to taking it. -/
theorem roundRobinPrio_toward {gtTable : Table N} {gtCurrent target : Fin N} {fuel : Nat}
    {thread : Fin N} {choice : Choice N} (isReady : (gtTable target).state = .ready)
    (waits : target ≠ gtCurrent)
    (chosen : roundRobinPrio gtCurrent fuel gtTable thread = some choice) :
    PrioAdvance gtTable thread target choice
      ((prioPassed gtCurrent fuel gtTable thread).count target) := by
  induction fuel generalizing gtTable thread with
  | zero => cases chosen
  | succ fuel inductionHypothesis =>
      unfold roundRobinPrio at chosen
      unfold prioPassed
      dsimp only at chosen ⊢
      split at chosen
      · rename_i isBlocked
        have other : nextSlot thread ≠ target := by
          rintro rfl
          simp [isReady] at isBlocked
        rw [if_pos isBlocked]
        exact .elsewhere other rfl (inductionHypothesis isReady chosen)
      · rename_i notBlocked
        rw [if_neg notBlocked]
        split at chosen
        · rename_i eligible
          cases chosen
          rw [if_pos eligible]
          exact .single takeUp rfl
        · rename_i notEligible
          rw [if_neg notEligible]
          split at chosen
          · rename_i isCurrent
            cases chosen
            rw [if_pos isCurrent]
            apply PrioAdvance.single passOver
            exact List.count_eq_zero.mpr fun member =>
              waits ((List.mem_singleton.mp member).trans isCurrent)
          · rename_i notCurrent
            rw [if_neg notCurrent]
            have stillReady : (gtTable.modify (nextSlot thread) passOver target).state = .ready :=
              (update_skipCount_state ..).trans isReady
            have advance := inductionHypothesis stillReady chosen
            by_cases arrives : nextSlot thread = target
            · rw [arrives] at advance notEligible ⊢
              rw [List.count_cons_self]
              exact .again isReady notEligible advance
            · rw [List.count_cons_of_ne arrives]
              exact .elsewhere arrives (Table.modify_of_ne _ (Ne.symm arrives) _) advance

/-- A Ready slot ends the scan of `round_robin_prio`. -/
theorem roundRobinPrio_of_ready {gtTable : Table N} {gtCurrent target : Fin N} {fuel : Nat}
    {thread : Fin N} (isReady : (gtTable target).state = .ready)
    (enough : patience gtTable thread target ≤ fuel) :
    ∃ choice, roundRobinPrio gtCurrent fuel gtTable thread = some choice := by
  induction fuel generalizing gtTable thread with
  | zero =>
      have positive := stepsTo_pos thread target
      unfold patience at enough
      omega
  | succ fuel inductionHypothesis =>
      unfold roundRobinPrio
      dsimp only
      split
      · rename_i isBlocked
        have other : nextSlot thread ≠ target := by
          rintro rfl
          simp [isReady] at isBlocked
        apply inductionHypothesis isReady
        unfold patience at *
        rw [stepsTo_next other] at enough
        omega
      · split
        · exact ⟨_, rfl⟩
        · rename_i notEligible
          split
          · exact ⟨_, rfl⟩
          · have stillReady : (gtTable.modify (nextSlot thread) passOver target).state = .ready :=
              (update_skipCount_state ..).trans isReady
            have stillEnough :
                patience (gtTable.modify (nextSlot thread) passOver) (nextSlot thread) target ≤
                  fuel := by
              unfold patience at *
              by_cases arrives : nextSlot thread = target
              · have used := passesLeft_bump isReady (arrives ▸ notEligible)
                rw [stepsTo_of_next arrives, ← used, Nat.succ_mul] at enough
                rw [arrives, Table.modify_self, stepsTo_self]
                omega
              · rw [Table.modify_of_ne _ (Ne.symm arrives)]
                rw [stepsTo_next arrives] at enough
                omega
            exact inductionHypothesis stillReady stillEnough

/-! ### Scans without an end

The scan of `round_robin` steps over Blocked slots before it compares with the current one.
When that one is Blocked itself and nothing is Ready, the comparison is never reached.
-/

/-- With the current slot Blocked and no slot Ready `round_robin` goes round and
round. -/
theorem roundRobin_endless {gtTable : Table N} {gtCurrent : Fin N}
    (isBlocked : (gtTable gtCurrent).state = .blocked)
    (noneReady : ∀ slot, (gtTable slot).state ≠ .ready) (fuel : Nat) (thread : Fin N) :
    roundRobin gtTable gtCurrent fuel thread = none := by
  fun_induction roundRobin gtTable gtCurrent fuel thread with
  | case1 => rfl
  | case2 fuel thread isReady => exact absurd isReady (noneReady thread)
  | case3 _ _ _ _ _ inductionHypothesis => exact inductionHypothesis
  | case4 fuel thread _ next notBlocked isCurrent => exact absurd (isCurrent ▸ isBlocked) notBlocked
  | case5 _ _ _ _ _ _ inductionHypothesis => exact inductionHypothesis

/-- So does `round_robin_prio`, whatever it counts. -/
theorem roundRobinPrio_endless {gtTable : Table N} {gtCurrent : Fin N}
    (isBlocked : (gtTable gtCurrent).state = .blocked)
    (noneReady : ∀ slot, (gtTable slot).state ≠ .ready) (fuel : Nat) (thread : Fin N) :
    roundRobinPrio gtCurrent fuel gtTable thread = none := by
  fun_induction roundRobinPrio gtCurrent fuel gtTable thread with
  | case1 => rfl
  | case2 _ _ _ _ _ inductionHypothesis => exact inductionHypothesis isBlocked noneReady
  | case3 fuel gtTable thread next notBlocked eligible => exact absurd eligible.1 (noneReady next)
  | case4 fuel gtTable thread next notBlocked notEligible bumped isCurrent =>
      exact absurd (isCurrent ▸ isBlocked) notBlocked
  | case5 fuel gtTable thread next notBlocked notEligible bumped notCurrent inductionHypothesis =>
      have same (slot : Fin N) : (bumped slot).state = (gtTable slot).state :=
        update_skipCount_state ..
      exact inductionHypothesis ((same _).trans isBlocked) fun slot => same slot ▸ noneReady slot

/-! ### Termination -/

section Termination

variable {gtTable : Table N} {gtCurrent : Fin N} {totalTickets : Int} {draw : Nat}

/-- A Ready slot ends every selector. -/
theorem getNextThread_of_ready (algorithm : Algorithm) {target : Fin N}
    (isReady : (gtTable target).state = .ready) (totalTickets : Int) (draw : Nat)
    {fuel : Nat} (enough : patience gtTable gtCurrent target < fuel) :
    ∃ choice, getNextThread algorithm gtTable gtCurrent totalTickets draw fuel gtCurrent =
      some choice := by
  have fromRoundRobin : ∃ choice, roundRobin gtTable gtCurrent fuel gtCurrent = some choice :=
    roundRobin_of_ready isReady ((Nat.le_add_left _ _).trans_lt enough)
  cases algorithm with
  | roundRobin => exact fromRoundRobin
  | roundRobinPrio => exact roundRobinPrio_of_ready isReady enough.le
  | lottery =>
      unfold getNextThread lottery
      dsimp only
      split
      · exact ⟨_, rfl⟩
      · exact fromRoundRobin

/-- With the current slot Blocked and no slot to run no selector ends. -/
theorem getNextThread_endless (algorithm : Algorithm)
    (isBlocked : (gtTable gtCurrent).state = .blocked)
    (noneReady : ∀ slot, (gtTable slot).state ≠ .ready)
    (noneRunning : ∀ slot, (gtTable slot).state ≠ .running) (fuel : Nat) :
    getNextThread algorithm gtTable gtCurrent totalTickets draw fuel gtCurrent = none := by
  cases algorithm with
  | roundRobin => exact roundRobin_endless isBlocked noneReady fuel gtCurrent
  | roundRobinPrio => exact roundRobinPrio_endless isBlocked noneReady fuel gtCurrent
  | lottery =>
      have noOwner : ticketOwner gtTable ((draw : Int).tmod totalTickets) = none :=
        ticketOwner_eq_none fun slot _ => ⟨noneReady slot, noneRunning slot⟩
      unfold getNextThread lottery
      simp only [noOwner]
      exact roundRobin_endless isBlocked noneReady fuel gtCurrent

/-- Called with the current slot, the selectors end exactly if the current slot is not
Blocked or some slot is Ready, with a slot that is Ready or current and never Blocked.
(`total_tickets`, positive from `gt_init` on, only bounds the draw.) -/
theorem selector_terminates_iff (algorithm : Algorithm) (gtTable : Table N) (gtCurrent : Fin N)
    (totalTickets : Int) (draw : Nat)
    (onlyCurrent : ∀ slot, slot ≠ gtCurrent → (gtTable slot).state ≠ .running) :
    ((∃ fuel choice, getNextThread algorithm gtTable gtCurrent totalTickets draw fuel gtCurrent =
        some choice) ↔
      ((gtTable gtCurrent).state ≠ .blocked ∨ ∃ slot, (gtTable slot).state = .ready)) ∧
    ∀ fuel choice, getNextThread algorithm gtTable gtCurrent totalTickets draw fuel gtCurrent =
        some choice →
      ((gtTable choice.thread).state = .ready ∨ choice.thread = gtCurrent) ∧
        (gtTable choice.thread).state ≠ .blocked := by
  refine ⟨⟨?_, ?_⟩, ?_⟩
  · rintro ⟨fuel, choice, chosen⟩
    by_contra nothing
    push Not at nothing
    obtain ⟨isBlocked, noneReady⟩ := nothing
    have noneRunning (slot : Fin N) : (gtTable slot).state ≠ .running := by
      by_cases isCurrent : slot = gtCurrent
      · simp [isCurrent, isBlocked]
      · exact onlyCurrent slot isCurrent
    rw [getNextThread_endless algorithm isBlocked noneReady noneRunning] at chosen
    cases chosen
  · rintro (notBlocked | ⟨slot, isReady⟩)
    · exact ⟨N, getNextThread_total algorithm notBlocked totalTickets draw (le_refl N)⟩
    · exact ⟨_, getNextThread_of_ready algorithm isReady totalTickets draw (Nat.lt_succ_self _)⟩
  · intro fuel choice chosen
    have sound := getNextThread_sound chosen
    refine ⟨?_, sound.notBlocked⟩
    rcases sound.readyOrCurrent with isReady | isRunning | isCurrent
    · exact .inl isReady
    · exact .inr (by_contra fun other => onlyCurrent _ other isRunning)
    · exact .inr isCurrent

end Termination

/-- The current slot is Blocked, and the least urgent thread waits behind it. -/
def blockedBeforeReady : Table 3 := fun slot =>
  { Gt.zero with
    state := if slot = 0 then .blocked else if slot = 1 then .ready else .unused
    priority := minPriority }

/-- The scan of `round_robin_prio` goes round ten times and takes it. -/
theorem selector_terminates_after_laps :
    ∃ fuel choice, getNextThread .roundRobinPrio blockedBeforeReady 0 11 0 fuel 0 = some choice :=
  ((selector_terminates_iff .roundRobinPrio blockedBeforeReady 0 11 0 (by decide)).1).mpr
    (.inr ⟨1, rfl⟩)

end Ivos.Scheduler
