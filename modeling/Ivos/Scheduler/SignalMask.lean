/-
Module: Ivos.Scheduler.SignalMask
Purpose: The signal mask of the process while SIGALRM and SIGINT are delivered and
  the threads switch; when each of the two signals is masked.
Trusted boundary: none
Main exports: SigSet, SignalFrame, SignalState, SignalEvent, signalMasks,
  bootSignals, alarm_masked_exactly, semaphore_sections_undisturbed,
  interrupt_masked_exactly, interrupt_left_masked
-/
import Ivos.Library.PartialMachine
import Mathlib.Data.Fin.Basic
import Mathlib.Logic.Function.Basic

namespace Ivos.Scheduler

variable {N : Nat}

/-!
There is one mask for the process, and `gt_switch` leaves it alone.  What is kept
on the stacks are the masks to go back to: the kernel puts the interrupted one
under a handler, which runs with its own signal masked as well, and
`update_thread_state` and the semaphore operations keep `old_mask`.  `signal`
installs the handlers, so no other signal is masked while one of them runs.

Which slot a selector chooses and what the states in the table are is left open.
-/

/-- The two members of a `sigset_t` that the scheduler sets. -/
@[ext] structure SigSet where
  sigint : Bool
  sigalrm : Bool
deriving Repr, DecidableEq

/-- A call that is in progress on a stack, above the code of the thread. -/
inductive SignalFrame where
  /-- `gt_alarm_handle` at its call of `gt_schedule`. -/
  | alarmHandle (interrupted : SigSet)
  /-- `gt_alarm_handle` after that call. -/
  | alarmReturn (interrupted : SigSet)
  /-- `gt_int_handle`, printing. -/
  | intHandle (interrupted : SigSet)
  /-- `gt_schedule` before `gt_reset_sig(SIGALRM)`. -/
  | scheduleEntry
  /-- `gt_schedule` from there to `gt_switch`. -/
  | schedule
  /-- `gt_schedule` after `gt_switch`. -/
  | scheduleReturn
  /-- `update_thread_state` between its two calls of `sigprocmask`. -/
  | updateThreadState (oldMask : SigSet)
  /-- `sem_wait`, `sem_post` or `sem_try_wait` between its two. -/
  | semaphore (oldMask : SigSet)
deriving Repr, DecidableEq

/-- The mask of the process and the stacks: the one on the processor, and those
the slots of the table would be resumed with. -/
structure SignalState (N : Nat) where
  mask : SigSet
  cpu : List SignalFrame
  saved : Fin N → List SignalFrame

/-- One step of the process. -/
inductive SignalEvent (N : Nat) where
  /-- SIGALRM is delivered. -/
  | alarm
  /-- SIGINT is delivered. -/
  | interrupt
  /-- Thread code or `gt_alarm_handle` calls `gt_schedule`. -/
  | callSchedule
  /-- `gt_reset_sig(SIGALRM)`. -/
  | resetSig
  /-- `update_thread_state` up to its `SIG_BLOCK`. -/
  | enterUpdate
  /-- Its `SIG_SETMASK`, and the return. -/
  | leaveUpdate
  /-- A semaphore operation up to its `SIG_BLOCK`. -/
  | enterSemaphore
  /-- Its `SIG_SETMASK`, and the return. -/
  | leaveSemaphore
  /-- `gt_create` writes the context of a slot. -/
  | create (p : Fin N)
  /-- `gt_switch`. -/
  | switch (old new : Fin N)
  /-- `gt_schedule` returns. -/
  | finish
  /-- A handler returns. -/
  | sigreturn
deriving Repr, DecidableEq

namespace SignalState

/-- The running stack and the mask change. -/
@[simps] def goto (state : SignalState N) (mask : SigSet) (cpu : List SignalFrame) :
    SignalState N :=
  { state with mask := mask, cpu := cpu }

/-- One step; `none` where the code on the processor does not stand at it, or the
signal is masked. -/
def step (state : SignalState N) (event : SignalEvent N) : Option (SignalState N) :=
  match event, state.cpu with
  | .alarm, cpu =>
      if state.mask.sigalrm then none
      else some (state.goto { state.mask with sigalrm := true } (.alarmHandle state.mask :: cpu))
  | .interrupt, cpu =>
      if state.mask.sigint then none
      else some (state.goto { state.mask with sigint := true } (.intHandle state.mask :: cpu))
  | .callSchedule, [] => some (state.goto state.mask [.scheduleEntry])
  | .callSchedule, .alarmHandle interrupted :: outer =>
      some (state.goto state.mask (.scheduleEntry :: .alarmReturn interrupted :: outer))
  | .resetSig, .scheduleEntry :: outer =>
      some (state.goto { state.mask with sigalrm := false } (.schedule :: outer))
  | .enterUpdate, [] =>
      some (state.goto { state.mask with sigint := true } [.updateThreadState state.mask])
  | .enterUpdate, .schedule :: outer =>
      some (state.goto { state.mask with sigint := true }
        (.updateThreadState state.mask :: .schedule :: outer))
  | .enterUpdate, .semaphore oldMask :: outer =>
      some (state.goto { state.mask with sigint := true }
        (.updateThreadState state.mask :: .semaphore oldMask :: outer))
  | .leaveUpdate, .updateThreadState oldMask :: outer => some (state.goto oldMask outer)
  | .enterSemaphore, [] => some (state.goto ⟨true, true⟩ [.semaphore state.mask])
  | .leaveSemaphore, .semaphore oldMask :: outer => some (state.goto oldMask outer)
  | .create p, [] => some { state with saved := Function.update state.saved p [] }
  | .switch old new, .schedule :: outer =>
      let saved := Function.update state.saved old (.scheduleReturn :: outer)
      some { state with cpu := saved new, saved := saved }
  | .finish, .scheduleReturn :: outer => some (state.goto state.mask outer)
  | .sigreturn, .alarmReturn interrupted :: outer => some (state.goto interrupted outer)
  | .sigreturn, .intHandle interrupted :: outer => some (state.goto interrupted outer)
  | _, _ => none

end SignalState

/-- The process, seen as its mask and its stacks. -/
def signalMasks : PartialMachine (SignalState N) (SignalEvent N) where
  step := SignalState.step

/-- After `gt_init`, with nothing masked and no call in progress. -/
def bootSignals : SignalState N :=
  { mask := ⟨false, false⟩, cpu := [], saved := fun _ => [] }

/-! ### Where the signals are masked -/

/-- The stack stands where SIGALRM is masked: in a semaphore operation, or in a
handler of SIGALRM that has not got past `gt_reset_sig` yet. -/
def holdsAlarm : List SignalFrame → Bool
  | .alarmHandle _ :: _ | .semaphore _ :: _ => true
  | .scheduleEntry :: .alarmReturn _ :: _ => true
  | .intHandle _ :: outer | .updateThreadState _ :: outer => holdsAlarm outer
  | _ => false

/-- The stack stands where the code masks SIGINT. -/
def holdsInterrupt : List SignalFrame → Bool
  | .intHandle _ :: _ | .updateThreadState _ :: _ | .semaphore _ :: _ => true
  | _ => false

/-- An alarm is delivered only while SIGINT is not masked. -/
def AlarmSparesInterrupt (state : SignalState N) (event : SignalEvent N) : Prop :=
  event = .alarm → state.mask.sigint = false

instance (state : SignalState N) (event : SignalEvent N) :
    Decidable (AlarmSparesInterrupt state event) := by
  unfold AlarmSparesInterrupt
  infer_instance

namespace SignalFrame

/-- The mask that the end of the call puts back; `gt_schedule` puts back none. -/
def restored : SignalFrame → Option SigSet
  | alarmHandle mask | alarmReturn mask | intHandle mask | updateThreadState mask
  | semaphore mask => some mask
  | scheduleEntry | schedule | scheduleReturn => none

/-- What is known of the mask inside the call: a handler was delivered, and what
the code has blocked is blocked. -/
def Under (mask : SigSet) : SignalFrame → Prop
  | alarmHandle interrupted | alarmReturn interrupted => interrupted.sigalrm = false
  | intHandle interrupted => mask.sigint = true ∧ interrupted.sigint = false
  | updateThreadState _ => mask.sigint = true
  | semaphore _ => mask = ⟨true, true⟩
  | scheduleEntry | schedule | scheduleReturn => True

end SignalFrame

section Invariant

/-!
In every run the stacks determine where SIGALRM is masked.  For SIGINT they do so
only when no alarm comes while it is masked; `spared` stands for that.
-/

variable (spared : Prop)

/-- Neither signal is masked, as far as the stacks determine it. -/
def Clear (mask : SigSet) : Prop :=
  mask.sigalrm = false ∧ (spared → mask.sigint = false)

/-- The mask has the signals that the stack holds. -/
def Agrees (stack : List SignalFrame) (mask : SigSet) : Prop :=
  mask.sigalrm = holdsAlarm stack ∧ (spared → mask.sigint = holdsInterrupt stack)

/-- A stack that may run under a mask.  The calls on it will go back to masks that
fit what is below them; below `gt_schedule`, any clear mask has to fit. -/
def Fits : List SignalFrame → SigSet → Prop
  | [], mask => Agrees spared [] mask
  | frame :: outer, mask =>
      Agrees spared (frame :: outer) mask ∧ frame.Under mask ∧
        match frame.restored with
        | some oldMask => Fits outer oldMask
        | none => ∀ after, Clear spared after → Fits outer after

/-- The running stack fits the mask, and the others every clear mask. -/
structure MaskInvariant (state : SignalState N) : Prop where
  cpu : Fits spared state.cpu state.mask
  saved : ∀ slot mask, Clear spared mask → Fits spared (state.saved slot) mask

variable {spared}

theorem Fits.agrees {stack : List SignalFrame} {mask : SigSet} (fits : Fits spared stack mask) :
    Agrees spared stack mask := by
  cases stack with
  | nil => exact fits
  | cons => exact fits.1

/-- Another stack is put in a slot. -/
theorem fits_update {saved : Fin N → List SignalFrame} {stack : List SignalFrame} (slot : Fin N)
    (fits : ∀ mask, Clear spared mask → Fits spared stack mask)
    (others : ∀ slot mask, Clear spared mask → Fits spared (saved slot) mask) (other : Fin N) :
    ∀ mask, Clear spared mask → Fits spared (Function.update saved slot stack other) mask := by
  by_cases same : other = slot
  · subst same
    rwa [Function.update_self]
  · rw [Function.update_of_ne same]
    exact others other

/-- The kernel, `gt_reset_sig`, the masks put back and `gt_switch` keep the
invariant. -/
theorem MaskInvariant.step {before after : SignalState N} {event : SignalEvent N}
    (invariant : MaskInvariant spared before)
    (sparing : spared → AlarmSparesInterrupt before event)
    (stepped : before.step event = some after) : MaskInvariant spared after := by
  obtain ⟨cpu, saved⟩ := invariant
  unfold SignalState.step at stepped
  split at stepped
  -- The two deliveries: the signal was not masked, and now is.
  · split at stepped <;> cases stepped
    next unmasked =>
      have clear := Bool.eq_false_of_not_eq_true unmasked
      exact ⟨⟨⟨rfl, fun spare => sparing spare rfl⟩, clear, cpu⟩, saved⟩
  · split at stepped <;> cases stepped
    next unmasked =>
      have clear := Bool.eq_false_of_not_eq_true unmasked
      exact ⟨⟨⟨cpu.agrees.1, fun _ => rfl⟩, ⟨rfl, clear⟩, cpu⟩, saved⟩
  -- `gt_schedule` is called by thread code or by the handler.
  · next standing =>
      cases stepped
      rw [standing] at cpu
      exact ⟨⟨cpu, trivial, fun _ clear => clear⟩, saved⟩
  · next interrupted outer standing =>
      cases stepped
      rw [standing] at cpu
      obtain ⟨agrees, delivered, below⟩ := cpu
      exact ⟨⟨agrees, trivial, fun _ clear => ⟨clear, delivered, below⟩⟩, saved⟩
  -- `gt_reset_sig`.
  · next outer standing =>
      cases stepped
      rw [standing] at cpu
      exact ⟨⟨⟨rfl, cpu.1.2⟩, trivial, cpu.2.2⟩, saved⟩
  -- `update_thread_state` blocks SIGINT and goes back to `old_mask`.
  · next standing =>
      cases stepped
      rw [standing] at cpu
      exact ⟨⟨⟨cpu.1, fun _ => rfl⟩, rfl, cpu⟩, saved⟩
  · next outer standing =>
      cases stepped
      rw [standing] at cpu
      exact ⟨⟨⟨cpu.1.1, fun _ => rfl⟩, rfl, cpu⟩, saved⟩
  · next oldMask outer standing =>
      cases stepped
      rw [standing] at cpu
      exact ⟨⟨⟨cpu.1.1, fun _ => rfl⟩, rfl, cpu⟩, saved⟩
  · next oldMask outer standing =>
      cases stepped
      rw [standing] at cpu
      exact ⟨cpu.2.2, saved⟩
  -- A semaphore operation blocks both and goes back to `old_mask`.
  · next standing =>
      cases stepped
      rw [standing] at cpu
      exact ⟨⟨⟨rfl, fun _ => rfl⟩, rfl, cpu⟩, saved⟩
  · next oldMask outer standing =>
      cases stepped
      rw [standing] at cpu
      exact ⟨cpu.2.2, saved⟩
  -- A created context is thread code.
  · next p standing =>
      cases stepped
      exact ⟨cpu, fits_update p (fun _ clear => clear) saved⟩
  -- `gt_switch` is reached under a clear mask, which what it resumes fits.
  · next old new outer standing =>
      cases stepped
      rw [standing] at cpu
      have suspended (mask : SigSet) (clear : Clear spared mask) :
          Fits spared (.scheduleReturn :: outer) mask := ⟨clear, trivial, cpu.2.2⟩
      have resumable := fits_update old suspended saved
      exact ⟨resumable new _ cpu.1, resumable⟩
  -- `gt_schedule` and the handlers return.
  · next outer standing =>
      cases stepped
      rw [standing] at cpu
      exact ⟨cpu.2.2 _ cpu.1, saved⟩
  · next interrupted outer standing =>
      cases stepped
      rw [standing] at cpu
      exact ⟨cpu.2.2, saved⟩
  · next interrupted outer standing =>
      cases stepped
      rw [standing] at cpu
      exact ⟨cpu.2.2, saved⟩
  · cases stepped

theorem MaskInvariant.boot : MaskInvariant spared (bootSignals : SignalState N) :=
  ⟨⟨rfl, fun _ => rfl⟩, fun _ _ clear => clear⟩

end Invariant

/-- The invariant holds along every run, whenever the signals come. -/
theorem MaskInvariant.of_reached {state : SignalState N}
    (reached : signalMasks.Reached PartialMachine.anyStep bootSignals state) :
    MaskInvariant False state :=
  reached.invariant .boot fun _ _ _ invariant _ stepped => invariant.step nofun stepped

/-- Below a handler or `gt_schedule` there is no semaphore operation: on a stack
with one, the innermost call is the operation or an `update_thread_state`, and
both signals are masked. -/
theorem Fits.of_semaphore {spared : Prop} {stack : List SignalFrame} {mask oldMask : SigSet}
    (fits : Fits spared stack mask) (inside : .semaphore oldMask ∈ stack) :
    mask = ⟨true, true⟩ ∧
      ((∃ saved outer, stack = .updateThreadState saved :: outer) ∨
        ∃ saved outer, stack = .semaphore saved :: outer) := by
  induction stack generalizing mask with
  | nil => cases inside
  | cons frame outer inductionHypothesis =>
      obtain ⟨agrees, under, below⟩ := fits
      have deeper (isOther : .semaphore oldMask ≠ frame) : .semaphore oldMask ∈ outer :=
        (List.mem_cons.mp inside).resolve_left isOther
      cases frame with
      | semaphore saved =>
          exact ⟨under, .inr ⟨saved, outer, rfl⟩⟩
      | updateThreadState saved =>
          obtain ⟨rfl, -⟩ := inductionHypothesis below (deeper nofun)
          have kept : mask.sigalrm = true := agrees.1.trans below.agrees.1.symm
          exact ⟨SigSet.ext under kept, .inl ⟨_, outer, rfl⟩⟩
      | alarmHandle interrupted | alarmReturn interrupted =>
          obtain ⟨rfl, -⟩ := inductionHypothesis below (deeper nofun)
          cases under
      | intHandle interrupted =>
          obtain ⟨rfl, -⟩ := inductionHypothesis below (deeper nofun)
          cases under.2
      | scheduleEntry | schedule | scheduleReturn =>
          obtain ⟨masked, -⟩ :=
            inductionHypothesis (below ⟨false, false⟩ ⟨rfl, fun _ => rfl⟩) (deeper nofun)
          cases masked

/-- A stack that can be resumed has no semaphore operation on it. -/
theorem not_semaphore_of_fits {spared : Prop} {stack : List SignalFrame}
    (fits : ∀ mask, Clear spared mask → Fits spared stack mask) (oldMask : SigSet) :
    .semaphore oldMask ∉ stack := by
  intro inside
  obtain ⟨masked, -⟩ := (fits ⟨false, false⟩ ⟨rfl, fun _ => rfl⟩).of_semaphore inside
  cases masked

/-- Wherever SIGALRM and SIGINT come, the first is masked exactly inside the
semaphore operations and at the start of its own handler, so thread code can
always be preempted. -/
theorem alarm_masked_exactly {state : SignalState N}
    (reached : signalMasks.Reached PartialMachine.anyStep bootSignals state) :
    state.mask.sigalrm = holdsAlarm state.cpu :=
  (MaskInvariant.of_reached reached).cpu.agrees.1

/-- A handler has printed, another is at its call of `gt_schedule`. -/
theorem alarm_masked_exactly_handlers :
    ∃ state : SignalState 2,
      state.mask.sigalrm = holdsAlarm state.cpu ∧ holdsAlarm state.cpu = true ∧
        state.cpu = [.alarmHandle ⟨false, false⟩] := by
  obtain ⟨state, reached, standing⟩ :=
    signalMasks.exists_reached_of_any PartialMachine.anyStep (bootSignals : SignalState 2)
      [.interrupt, .sigreturn, .alarm]
      (fun state => state.cpu = [.alarmHandle ⟨false, false⟩]) (by decide)
  exact ⟨state, alarm_masked_exactly reached, by rw [standing]; rfl, standing⟩

/-- Only the running thread can be in a semaphore operation, and nothing but the
steps of that operation can happen until it ends: no signal is delivered and no
thread is switched to. -/
theorem semaphore_sections_undisturbed {state : SignalState N}
    (reached : signalMasks.Reached PartialMachine.anyStep bootSignals state) :
    (∀ slot oldMask, .semaphore oldMask ∉ state.saved slot) ∧
      ∀ oldMask, .semaphore oldMask ∈ state.cpu →
        state.mask = ⟨true, true⟩ ∧
          ∀ event after, signalMasks.step state event = some after →
            event = .enterUpdate ∨ event = .leaveUpdate ∨ event = .leaveSemaphore := by
  have invariant := MaskInvariant.of_reached reached
  refine ⟨fun slot => not_semaphore_of_fits (invariant.saved slot), fun oldMask inside => ?_⟩
  obtain ⟨masked, standing⟩ := invariant.cpu.of_semaphore inside
  refine ⟨masked, fun event after stepped => ?_⟩
  change state.step event = some after at stepped
  unfold SignalState.step at stepped
  obtain ⟨saved, outer, standing⟩ | ⟨saved, outer, standing⟩ := standing
  all_goals
    rw [standing, masked] at stepped
    cases event with
    | enterUpdate | leaveUpdate | leaveSemaphore => simp
    | alarm | interrupt | callSchedule | resetSig | enterSemaphore | create | switch | finish
      | sigreturn => cases stepped

/-- A thread is about to be blocked. -/
theorem semaphore_sections_undisturbed_wait :
    ∃ state : SignalState 2,
      state.cpu = [.updateThreadState ⟨true, true⟩, .semaphore ⟨false, false⟩] ∧
        signalMasks.step state .alarm = none ∧ signalMasks.step state .interrupt = none := by
  obtain ⟨state, reached, standing⟩ :=
    signalMasks.exists_reached_of_any PartialMachine.anyStep (bootSignals : SignalState 2)
      [.enterSemaphore, .enterUpdate]
      (fun state => state.cpu = [.updateThreadState ⟨true, true⟩, .semaphore ⟨false, false⟩])
      (by decide)
  obtain ⟨-, enabled⟩ :=
    (semaphore_sections_undisturbed reached).2 ⟨false, false⟩ (by simp [standing])
  refine ⟨state, standing, ?_, ?_⟩
  · cases stepped : signalMasks.step state .alarm with
    | none => rfl
    | some after => simpa using enabled .alarm after stepped
  · cases stepped : signalMasks.step state .interrupt with
    | none => rfl
    | some after => simpa using enabled .interrupt after stepped

/-- As long as no alarm comes in `gt_print_stats` or `update_thread_state`, the
mask is clear in thread code, and SIGINT is masked exactly in these two and in the
semaphore operations. -/
theorem interrupt_masked_exactly {state : SignalState N}
    (reached : signalMasks.Reached AlarmSparesInterrupt bootSignals state) :
    state.mask = ⟨holdsInterrupt state.cpu, holdsAlarm state.cpu⟩ := by
  have invariant : MaskInvariant True state :=
    reached.invariant .boot fun _ _ _ invariant permitted stepped =>
      invariant.step (fun _ => permitted) stepped
  obtain ⟨alarm, interrupt⟩ := invariant.cpu.agrees
  exact SigSet.ext (interrupt trivial) alarm

/-- A thread has been preempted, and the next is interrupted by SIGINT. -/
theorem interrupt_masked_exactly_switched :
    ∃ state : SignalState 2,
      state.cpu = [.intHandle ⟨false, false⟩] ∧
        state.mask = ⟨holdsInterrupt state.cpu, holdsAlarm state.cpu⟩ := by
  obtain ⟨state, reached, standing⟩ :=
    signalMasks.exists_reached_of_any AlarmSparesInterrupt (bootSignals : SignalState 2)
      [.alarm, .callSchedule, .resetSig, .switch 0 1, .interrupt]
      (fun state => state.cpu = [.intHandle ⟨false, false⟩]) (by decide)
  exact ⟨state, standing, interrupt_masked_exactly reached⟩

/-- An alarm in `gt_print_stats` switches to a created thread, which starts with
SIGINT masked. -/
theorem interrupt_left_masked :
    ∃ state : SignalState 2,
      signalMasks.Reached PartialMachine.anyStep bootSignals state ∧
        state.cpu = [] ∧ state.mask.sigint = true :=
  signalMasks.exists_reached_of_any _ _
    [.interrupt, .alarm, .callSchedule, .resetSig, .switch 0 1]
    (fun state => state.cpu = [] ∧ state.mask.sigint = true) (by decide)

end Ivos.Scheduler
