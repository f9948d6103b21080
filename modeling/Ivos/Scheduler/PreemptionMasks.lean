/-
Module: Ivos.Scheduler.PreemptionMasks
Purpose: The scheduler run statement by statement keeps to the signal mask: its one
  flag is the SIGALRM of the mask in a run of the mask and the stacks.
Trusted boundary: none
Main exports: Statement.frames, Activity.frames, Shows, KeepsMasks,
  preemption_keeps_masks
-/
import Ivos.Library.ForwardSimulation
import Ivos.Scheduler.RunningSlot
import Ivos.Scheduler.SignalMask

namespace Ivos.Scheduler

variable {N : Nat} {Loc : Type}

/-- The calls in progress where an activation of `gt_schedule` stands at a
statement; `oldMask` is what `update_thread_state` keeps. -/
def Statement.frames (oldMask : SigSet) : Statement N → List SignalFrame
  | .resetSig => [.scheduleEntry]
  | .readyTest _ _ | .readyWrite _ _ | .runTest _ | .runWrite _ =>
      [.updateThreadState oldMask, .schedule]
  | .finish => [.scheduleReturn]
  | .start | .select _ | .testCurrent _ | .prepare _ | .setCurrent _ _ | .switch _ _ =>
      [.schedule]

/-- The calls in progress in thread code: `gt_create` ends in an
`update_thread_state`. -/
def Activity.frames (oldMask : SigSet) : Activity N → List SignalFrame
  | .createTest _ | .createWrite _ => [.updateThreadState oldMask]
  | _ => []

/-- A context as its calls in progress.  An activation of `gt_schedule` belongs to
a handler that will put a mask back, or to thread code. -/
inductive Shows : List (Statement N) → Activity N → List SignalFrame → Prop where
  | thread (activity : Activity N) (oldMask : SigSet) :
      Shows [] activity (activity.frames oldMask)
  | called (statement : Statement N) (oldMask : SigSet) {below : List (Statement N)}
      {activity : Activity N} {outer : List SignalFrame} (shown : Shows below activity outer) :
      Shows (statement :: below) activity (statement.frames oldMask ++ outer)
  | delivered (statement : Statement N) (oldMask interrupted : SigSet)
      {below : List (Statement N)} {activity : Activity N} {outer : List SignalFrame}
      (shown : Shows below activity outer) :
      Shows (statement :: below) activity
        (statement.frames oldMask ++ .alarmReturn interrupted :: outer)

/-- One step, as a run. -/
theorem SignalState.reaches {before after : SignalState N} {event : SignalEvent N}
    (stepped : before.step event = some after) :
    signalMasks.Reached PartialMachine.anyStep before after :=
  PartialMachine.Reached.step .start (trivial : PartialMachine.anyStep before event) stepped

/-- The invariant of the masks goes on holding. -/
theorem MaskInvariant.onwards {before after : SignalState N}
    (invariant : MaskInvariant False before)
    (reached : signalMasks.Reached PartialMachine.anyStep before after) :
    MaskInvariant False after :=
  reached.invariant invariant fun _ _ _ invariant _ stepped => invariant.step nofun stepped

/-- The machine beside the mask and the stacks. -/
structure KeepsMasks (machine : Machine N Loc) (state : SignalState N) : Prop where
  cpu : Shows machine.cpu.activations machine.cpu.activity state.cpu
  saved : ∀ slot,
    Shows (machine.saved slot).activations (machine.saved slot).activity (state.saved slot)
  masked : machine.masked = state.mask.sigalrm
  invariant : MaskInvariant False state

/-- The machine is beside a state that the mask and the stacks get to. -/
def MasksFollow (machine : Machine N Loc) (seen : SignalState N) : Prop :=
  ∃ next, signalMasks.Reached PartialMachine.anyStep seen next ∧ KeepsMasks machine next

namespace KeepsMasks

variable {machine : Machine N Loc} {seen : SignalState N}

theorem stays (keeps : KeepsMasks machine seen) : MasksFollow machine seen :=
  ⟨seen, .start, keeps⟩

/-- The running stack changes and the flag is the SIGALRM of the new mask. -/
theorem follow (keeps : KeepsMasks machine seen) {next : SignalState N}
    (reached : signalMasks.Reached PartialMachine.anyStep seen next) {after : Machine N Loc}
    (same : after.saved = machine.saved) (kept : next.saved = seen.saved)
    (cpu : Shows after.cpu.activations after.cpu.activity next.cpu)
    (masked : after.masked = next.mask.sigalrm) : MasksFollow after seen := by
  refine ⟨next, reached, cpu, fun slot => ?_, masked, keeps.invariant.onwards reached⟩
  rw [same, kept]
  exact keeps.saved slot

end KeepsMasks

/-! ### One activation of `gt_schedule` -/

/-- The innermost activation with what it stands on, which stays when it moves. -/
theorem Shows.innermost {statement : Statement N} {below : List (Statement N)}
    {activity : Activity N} {stack : List SignalFrame}
    (shown : Shows (statement :: below) activity stack) :
    ∃ oldMask outer, stack = statement.frames oldMask ++ outer ∧
      ∀ other newMask, Shows (other :: below) activity (other.frames newMask ++ outer) := by
  cases shown with
  | called _ oldMask shown =>
      exact ⟨oldMask, _, rfl, fun other newMask => .called other newMask shown⟩
  | delivered _ oldMask interrupted shown =>
      exact ⟨oldMask, _, rfl, fun other newMask => .delivered other newMask interrupted shown⟩

/-- Between `gt_reset_sig` and `gt_switch`, outside `update_thread_state`. -/
def Statement.Plain (statement : Statement N) : Prop :=
  ∀ oldMask, statement.frames oldMask = [.schedule]

/-- Inside an `update_thread_state` that `gt_schedule` calls. -/
def Statement.Updating (statement : Statement N) : Prop :=
  ∀ oldMask, statement.frames oldMask = [.updateThreadState oldMask, .schedule]

/-- `update_thread_state` puts back a mask with the same SIGALRM. -/
theorem Fits.oldMask_sigalrm {spared : Prop} {oldMask mask : SigSet} {outer : List SignalFrame}
    (fits : Fits spared (.updateThreadState oldMask :: outer) mask) :
    oldMask.sigalrm = mask.sigalrm := by
  obtain ⟨agrees, -, below⟩ := fits
  exact below.agrees.1.trans agrees.1.symm

namespace KeepsMasks

variable {machine after : Machine N Loc} {seen : SignalState N} {statement next : Statement N}
  {below : List (Statement N)}

/-- The innermost activation moves on without a call of `sigprocmask`. -/
theorem moves (keeps : KeepsMasks machine seen)
    (standing : machine.cpu.activations = statement :: below)
    (moved : after.cpu = { machine.cpu with activations := next :: below })
    (same : after.saved = machine.saved) (masked : after.masked = machine.masked)
    (alike : statement.Plain ∧ next.Plain ∨ statement.Updating ∧ next.Updating) :
    MasksFollow after seen := by
  have cpu := keeps.cpu
  rw [standing] at cpu
  obtain ⟨oldMask, outer, shape, shown⟩ := cpu.innermost
  have shows := shown next oldMask
  refine keeps.follow .start same rfl ?_ (masked.trans keeps.masked)
  rw [moved, shape]
  obtain ⟨before, later⟩ | ⟨before, later⟩ := alike
  · rwa [later, ← before oldMask] at shows
  · rwa [later, ← before oldMask] at shows

/-- It calls `update_thread_state`. -/
theorem callsUpdate (keeps : KeepsMasks machine seen)
    (standing : machine.cpu.activations = statement :: below)
    (moved : after.cpu = { machine.cpu with activations := next :: below })
    (same : after.saved = machine.saved) (masked : after.masked = machine.masked)
    (plain : statement.Plain) (updating : next.Updating) : MasksFollow after seen := by
  have cpu := keeps.cpu
  rw [standing] at cpu
  obtain ⟨oldMask, outer, shape, shown⟩ := cpu.innermost
  rw [plain] at shape
  have stepped : seen.step .enterUpdate = some (seen.goto { seen.mask with sigint := true }
      (.updateThreadState seen.mask :: .schedule :: outer)) := by
    unfold SignalState.step
    rw [shape]
    rfl
  refine keeps.follow (SignalState.reaches stepped) same rfl ?_ (masked.trans keeps.masked)
  have shows := shown next seen.mask
  rw [updating] at shows
  rw [moved]
  exact shows

/-- `update_thread_state` returns to it. -/
theorem returnsFromUpdate (keeps : KeepsMasks machine seen)
    (standing : machine.cpu.activations = statement :: below)
    (moved : after.cpu = { machine.cpu with activations := next :: below })
    (same : after.saved = machine.saved) (masked : after.masked = machine.masked)
    (updating : statement.Updating) (plain : next.Plain) : MasksFollow after seen := by
  have cpu := keeps.cpu
  rw [standing] at cpu
  obtain ⟨oldMask, outer, shape, shown⟩ := cpu.innermost
  rw [updating] at shape
  have stepped : seen.step .leaveUpdate = some (seen.goto oldMask (.schedule :: outer)) := by
    unfold SignalState.step
    rw [shape]
    rfl
  have fits := keeps.invariant.cpu
  rw [shape] at fits
  refine keeps.follow (SignalState.reaches stepped) same rfl ?_
    ((masked.trans keeps.masked).trans fits.oldMask_sigalrm.symm)
  have shows := shown next oldMask
  rw [plain] at shows
  rw [moved]
  exact shows

/-- `gt_reset_sig`. -/
theorem resets (keeps : KeepsMasks machine seen)
    (standing : machine.cpu.activations = .resetSig :: below)
    (moved : after.cpu = { machine.cpu with activations := .start :: below })
    (same : after.saved = machine.saved) (masked : after.masked = false) :
    MasksFollow after seen := by
  have cpu := keeps.cpu
  rw [standing] at cpu
  obtain ⟨oldMask, outer, shape, shown⟩ := cpu.innermost
  have stepped : seen.step .resetSig =
      some (seen.goto { seen.mask with sigalrm := false } (.schedule :: outer)) := by
    unfold SignalState.step
    rw [shape]
    rfl
  refine keeps.follow (SignalState.reaches stepped) same rfl ?_ masked
  rw [moved]
  exact shown .start oldMask

/-- `gt_switch`: what is suspended and what is resumed show their calls. -/
theorem switches (keeps : KeepsMasks machine seen) (rsp : Nat) (old new : Fin N)
    (standing : machine.cpu.activations = .switch old new :: below) :
    MasksFollow (machine.switchContext rsp old new) seen := by
  have cpu := keeps.cpu
  rw [standing] at cpu
  obtain ⟨oldMask, outer, shape, shown⟩ := cpu.innermost
  have stepped : seen.step (.switch old new) = some
      { seen with
        cpu := Function.update seen.saved old (.scheduleReturn :: outer) new
        saved := Function.update seen.saved old (.scheduleReturn :: outer) } := by
    unfold SignalState.step
    rw [shape]
    rfl
  have reached := SignalState.reaches stepped
  have saved (slot : Fin N) :
      Shows ((machine.switchContext rsp old new).saved slot).activations
        ((machine.switchContext rsp old new).saved slot).activity
        (Function.update seen.saved old (.scheduleReturn :: outer) slot) := by
    by_cases isOld : slot = old
    · subst isOld
      simp only [Machine.switchContext, Function.update_self, standing, List.tail_cons]
      exact shown .finish oldMask
    · simp only [Machine.switchContext, Function.update_of_ne isOld]
      exact keeps.saved slot
  exact ⟨_, reached, saved new, saved, keeps.masked, keeps.invariant.onwards reached⟩

/-- `gt_schedule` returns, to thread code or to a handler that returns as well. -/
theorem returns (keeps : KeepsMasks machine seen)
    (standing : machine.cpu.activations = .finish :: below)
    (moved : after.cpu = { machine.cpu with activations := below })
    (same : after.saved = machine.saved) (masked : after.masked = machine.masked) :
    MasksFollow after seen := by
  have cpu := keeps.cpu
  rw [standing] at cpu
  have fits := keeps.invariant.cpu
  generalize shape : seen.cpu = stack at cpu fits
  cases cpu with
  | @called _ _ _ _ outer shown =>
      have finished : seen.step .finish = some (seen.goto seen.mask outer) := by
        unfold SignalState.step
        rw [shape]
        rfl
      refine keeps.follow (SignalState.reaches finished) same rfl ?_
        (masked.trans keeps.masked)
      rw [moved]
      exact shown
  | @delivered _ _ interrupted _ _ outer shown =>
      have finished : seen.step .finish =
          some (seen.goto seen.mask (.alarmReturn interrupted :: outer)) := by
        unfold SignalState.step
        rw [shape]
        rfl
      have returned : (seen.goto seen.mask (.alarmReturn interrupted :: outer)).step .sigreturn =
          some (seen.goto interrupted outer) := rfl
      -- The handler was delivered under a mask without SIGALRM, and `gt_switch` is
      -- reached without it.
      have clear : interrupted.sigalrm = seen.mask.sigalrm :=
        (fits.2.2 ⟨false, false⟩ ⟨rfl, nofun⟩).2.1.trans fits.1.1.symm
      have both := (SignalState.reaches finished).trans (SignalState.reaches returned)
      refine keeps.follow both same rfl ?_ ((masked.trans keeps.masked).trans clear.symm)
      rw [moved]
      exact shown

/-- Where `goto` leads from an activation. -/
theorem goto_cpu (standing : machine.cpu.activations = statement :: below)
    (next : Statement N) :
    (machine.goto next).cpu = { machine.cpu with activations := next :: below } := by
  simp only [Machine.goto, standing, List.tail_cons]

/-- One statement of `gt_schedule`. -/
theorem scheduleStatement (keeps : KeepsMasks machine seen) (algorithm : Algorithm)
    (inputs : StatementInputs) (standing : machine.cpu.activations = statement :: below) :
    MasksFollow (machine.scheduleStatement algorithm inputs statement) seen := by
  have moved := goto_cpu standing
  cases statement with
  | resetSig => exact keeps.resets standing (moved .start) rfl rfl
  | start =>
      exact keeps.moves standing (moved _) rfl rfl (.inl ⟨fun _ => rfl, fun _ => rfl⟩)
  | select cursor =>
      obtain ⟨next, gtTable, scanned, -, ⟨cursor, rfl⟩ | ⟨p, rfl⟩⟩ :=
        machine.scan_spec inputs.draw cursor
      all_goals
        change MasksFollow (machine.scan _ _) seen
        rw [scanned]
        exact keeps.moves standing (moved _) rfl rfl (.inl ⟨fun _ => rfl, fun _ => rfl⟩)
  | testCurrent p =>
      simp only [Machine.scheduleStatement]
      split
      all_goals exact keeps.callsUpdate standing (moved _) rfl rfl (fun _ => rfl) fun _ => rfl
  | readyTest thread p =>
      simp only [Machine.scheduleStatement]
      split
      all_goals
        exact keeps.moves standing (moved _) rfl rfl (.inr ⟨fun _ => rfl, fun _ => rfl⟩)
  | readyWrite thread p =>
      exact keeps.moves standing (moved _) rfl rfl (.inr ⟨fun _ => rfl, fun _ => rfl⟩)
  | runTest p =>
      simp only [Machine.scheduleStatement]
      split
      · exact keeps.returnsFromUpdate standing (moved _) rfl rfl (fun _ => rfl) fun _ => rfl
      · exact keeps.moves standing (moved _) rfl rfl (.inr ⟨fun _ => rfl, fun _ => rfl⟩)
  | runWrite p =>
      exact keeps.returnsFromUpdate standing (moved _) rfl rfl (fun _ => rfl) fun _ => rfl
  | prepare p | setCurrent old p =>
      exact keeps.moves standing (moved _) rfl rfl (.inl ⟨fun _ => rfl, fun _ => rfl⟩)
  | switch old new => exact keeps.switches inputs.rsp old new standing
  | finish =>
      refine keeps.returns standing ?_ rfl rfl
      simp only [Machine.scheduleStatement, standing, List.tail_cons]

/-! ### Thread code -/

variable {activity next : Activity N}

/-- In thread code the stack shows what the activity says. -/
theorem inThread (keeps : KeepsMasks machine seen) (standing : machine.cpu.activations = [])
    (doing : machine.cpu.activity = activity) : ∃ oldMask, seen.cpu = activity.frames oldMask := by
  have cpu := keeps.cpu
  rw [standing, doing] at cpu
  generalize seen.cpu = stack at cpu
  cases cpu with
  | thread _ oldMask => exact ⟨oldMask, rfl⟩

/-- Thread code moves to another activity, and what is below does not change. -/
theorem shows_doing (standing : machine.cpu.activations = [])
    (moved : after.cpu = { machine.cpu with activity := next }) (oldMask : SigSet) :
    Shows after.cpu.activations after.cpu.activity (next.frames oldMask) := by
  rw [moved]
  change Shows machine.cpu.activations next _
  rw [standing]
  exact .thread next oldMask

/-- Thread code goes on without a call of `sigprocmask`. -/
theorem goesOn (keeps : KeepsMasks machine seen) (standing : machine.cpu.activations = [])
    (doing : machine.cpu.activity = activity)
    (moved : after.cpu = { machine.cpu with activity := next })
    (same : after.saved = machine.saved) (masked : after.masked = machine.masked)
    (alike : ∀ oldMask, next.frames oldMask = activity.frames oldMask) :
    MasksFollow after seen := by
  obtain ⟨oldMask, shape⟩ := keeps.inThread standing doing
  refine keeps.follow .start same rfl ?_ (masked.trans keeps.masked)
  rw [shape, ← alike]
  exact shows_doing standing moved oldMask

/-- `gt_create` gets to its `update_thread_state`. -/
theorem entersUpdate (keeps : KeepsMasks machine seen)
    (standing : machine.cpu.activations = []) {p : Fin N}
    (doing : machine.cpu.activity = .createStats p)
    (moved : after.cpu = { machine.cpu with activity := .createTest p })
    (same : after.saved = machine.saved) (masked : after.masked = machine.masked) :
    MasksFollow after seen := by
  obtain ⟨_, shape⟩ := keeps.inThread standing doing
  have stepped : seen.step .enterUpdate =
      some (seen.goto { seen.mask with sigint := true } [.updateThreadState seen.mask]) := by
    unfold SignalState.step
    rw [shape]
    rfl
  exact keeps.follow (SignalState.reaches stepped) same rfl
    (shows_doing standing moved seen.mask) (masked.trans keeps.masked)

/-- It returns from there, which is the end of `gt_create`. -/
theorem leavesUpdate (keeps : KeepsMasks machine seen)
    (standing : machine.cpu.activations = []) (doing : machine.cpu.activity = activity)
    (inside : ∀ oldMask, activity.frames oldMask = [.updateThreadState oldMask])
    (moved : after.cpu = { machine.cpu with activity := .code })
    (same : after.saved = machine.saved) (masked : after.masked = machine.masked) :
    MasksFollow after seen := by
  obtain ⟨oldMask, shape⟩ := keeps.inThread standing doing
  rw [inside] at shape
  have stepped : seen.step .leaveUpdate = some (seen.goto oldMask []) := by
    unfold SignalState.step
    rw [shape]
  have fits := keeps.invariant.cpu
  rw [shape] at fits
  exact keeps.follow (SignalState.reaches stepped) same rfl (shows_doing standing moved oldMask)
    ((masked.trans keeps.masked).trans fits.oldMask_sigalrm.symm)

/-- `gt_create` writes the context of a slot. -/
theorem creates (keeps : KeepsMasks machine seen) (standing : machine.cpu.activations = [])
    {p : Fin N} {priority newPriority : Int} {base : ℕ+} {entry : Loc}
    (doing : machine.cpu.activity = .createContext p priority base)
    (moved : after.cpu = { machine.cpu with activity := .createPriority p newPriority })
    (put : after.saved = Function.update machine.saved p ⟨p, [], entry, .code⟩)
    (masked : after.masked = machine.masked) : MasksFollow after seen := by
  obtain ⟨oldMask, shape⟩ := keeps.inThread standing doing
  have stepped : seen.step (.create p) =
      some { seen with saved := Function.update seen.saved p [] } := by
    unfold SignalState.step
    rw [shape]
    rfl
  have reached := SignalState.reaches stepped
  refine ⟨_, reached, ?_, fun slot => ?_, masked.trans keeps.masked,
    keeps.invariant.onwards reached⟩
  · change Shows after.cpu.activations after.cpu.activity seen.cpu
    rw [shape]
    exact shows_doing standing moved oldMask
  · rw [put]
    by_cases isNew : slot = p
    · subst isNew
      simp only [Function.update_self]
      exact .thread .code oldMask
    · simp only [Function.update_of_ne isNew]
      exact keeps.saved slot

/-- Thread code calls `gt_schedule`. -/
theorem enters (keeps : KeepsMasks machine seen) (standing : machine.cpu.activations = [])
    (doing : machine.cpu.activity = activity) (outside : ∀ oldMask, activity.frames oldMask = [])
    (next : Activity N)
    (moved : after.cpu = { machine.cpu with activations := [.resetSig], activity := next })
    (alike : ∀ oldMask, next.frames oldMask = [])
    (same : after.saved = machine.saved) (masked : after.masked = machine.masked) :
    MasksFollow after seen := by
  obtain ⟨oldMask, shape⟩ := keeps.inThread standing doing
  rw [outside] at shape
  have stepped : seen.step .callSchedule = some (seen.goto seen.mask [.scheduleEntry]) := by
    unfold SignalState.step
    rw [shape]
  refine keeps.follow (SignalState.reaches stepped) same rfl ?_ (masked.trans keeps.masked)
  rw [moved]
  have below := Shows.thread next oldMask
  rw [alike] at below
  exact .called .resetSig oldMask below

/-- One statement of `gt_create` or `gt_return`, or the return from a semaphore
operation. -/
theorem threadStatement [NeZero N] (keeps : KeepsMasks machine seen) (entry : Loc)
    (inputs : StatementInputs) (standing : machine.cpu.activations = [])
    (stepped : machine.threadStatement entry inputs = some after) : MasksFollow after seen := by
  unfold Machine.threadStatement at stepped
  cases doing : machine.cpu.activity with
  | code => simp only [doing, reduceCtorEq] at stepped
  | createSearch p priority =>
      simp only [doing] at stepped
      split at stepped
      · split at stepped
        all_goals
          cases stepped
          exact keeps.goesOn standing doing rfl rfl rfl fun _ => rfl
      · cases stepped
        exact keeps.goesOn standing doing rfl rfl rfl fun _ => rfl
  | createAlloc | returnTest =>
      simp only [doing] at stepped
      split at stepped
      all_goals
        cases stepped
        exact keeps.goesOn standing doing rfl rfl rfl fun _ => rfl
  | createContext p priority base =>
      simp only [doing] at stepped
      cases stepped
      exact keeps.creates standing doing rfl rfl rfl
  | createPriority | createSkip | createLo | createHi | createTotal | waitReturn | postReturn
  | returnUnused | returnFree =>
      simp only [doing] at stepped
      cases stepped
      exact keeps.goesOn standing doing rfl rfl rfl fun _ => rfl
  | createStats p =>
      simp only [doing] at stepped
      cases stepped
      exact keeps.entersUpdate standing doing rfl rfl rfl
  | createTest p =>
      simp only [doing] at stepped
      split at stepped
      · cases stepped
        exact keeps.leavesUpdate standing doing (fun _ => rfl) rfl rfl rfl
      · cases stepped
        exact keeps.goesOn standing doing rfl rfl rfl fun _ => rfl
  | createWrite p =>
      simp only [doing] at stepped
      cases stepped
      exact keeps.leavesUpdate standing doing (fun _ => rfl) rfl rfl rfl
  | returnSchedule =>
      simp only [doing] at stepped
      cases stepped
      refine keeps.enters standing doing (fun _ => rfl) .returnAssert ?_ (fun _ => rfl) rfl rfl
      simp only [Machine.enter, Machine.doing, standing]
  | returnAssert =>
      simp only [doing] at stepped
      cases stepped
      exact keeps.goesOn standing doing rfl rfl rfl fun _ => doing ▸ rfl
  | returnLoop =>
      simp only [doing] at stepped
      cases stepped
      refine keeps.enters standing doing (fun _ => rfl) .returnLoop ?_ (fun _ => rfl) rfl rfl
      simp only [Machine.enter, standing, ← doing]

/-- Thread code makes a call.  A semaphore operation leaves the mask as it was. -/
theorem makeCall [NeZero N] (keeps : KeepsMasks machine seen) (now : Timeval) (call : Call)
    (standing : machine.cpu.activations = []) (doing : machine.cpu.activity = .code)
    (stepped : machine.makeCall now call = some after) : MasksFollow after seen := by
  cases call with
  | gtCreate priority =>
      cases stepped
      exact keeps.goesOn standing doing rfl rfl rfl fun _ => rfl
  | schedule =>
      cases stepped
      refine keeps.enters standing doing (fun _ => rfl) .code ?_ (fun _ => rfl) rfl rfl
      simp only [Machine.enter, standing, ← doing]
  | gtReturn =>
      cases stepped
      exact keeps.goesOn standing doing rfl rfl rfl fun _ => rfl
  | semWait sem =>
      obtain ⟨waited, body, rfl⟩ := Option.map_eq_some_iff.mp stepped
      obtain ⟨semaphore, -, body⟩ := Option.bind_eq_some_iff.mp body
      split at body
      all_goals
        cases body
        exact keeps.goesOn standing doing rfl rfl rfl fun _ => rfl
  | semPost sem =>
      obtain ⟨posted, body, rfl⟩ := Option.map_eq_some_iff.mp stepped
      obtain ⟨semaphore, -, body⟩ := Option.bind_eq_some_iff.mp body
      split at body
      all_goals
        cases body
        exact keeps.goesOn standing doing rfl rfl rfl fun _ => rfl

/-- SIGALRM is delivered, and its handler calls `gt_schedule`. -/
theorem delivers (keeps : KeepsMasks machine seen) (unmasked : machine.masked = false) :
    MasksFollow { machine.enter with masked := true } seen := by
  have clear := keeps.masked.symm.trans unmasked
  have delivered : seen.step .alarm = some (seen.goto { seen.mask with sigalrm := true }
      (.alarmHandle seen.mask :: seen.cpu)) := by
    unfold SignalState.step
    exact if_neg (ne_true_of_eq_false clear)
  have called : (seen.goto { seen.mask with sigalrm := true }
      (.alarmHandle seen.mask :: seen.cpu)).step .callSchedule =
        some (seen.goto { seen.mask with sigalrm := true }
          (.scheduleEntry :: .alarmReturn seen.mask :: seen.cpu)) := rfl
  exact keeps.follow ((SignalState.reaches delivered).trans (SignalState.reaches called)) rfl rfl
    (.delivered .resetSig seen.mask seen.mask keeps.cpu) rfl

end KeepsMasks

/-- Every step of the statements is matched by steps of the mask and the stacks. -/
theorem keepsMasks_simulates [NeZero N] (algorithm : Algorithm) (program : Program) :
    Simulates (preemptive algorithm program) PartialMachine.anyStep
      (signalMasks : PartialMachine (SignalState N) _) PartialMachine.anyStep KeepsMasks where
  step {before after event seen} keeps _ stepped := by
    change MasksFollow after seen
    simp only [preemptive] at stepped
    split at stepped
    · cases event with
      | alarm =>
          dsimp only at stepped
          split at stepped
          · cases stepped
          · next unmasked =>
              cases stepped
              exact keeps.delivers (Bool.eq_false_of_not_eq_true unmasked)
      | call call now =>
          dsimp only at stepped
          split at stepped
          · next standing =>
              obtain ⟨loc, -, called⟩ := Option.bind_eq_some_iff.mp stepped
              have there : KeepsMasks { before with cpu := { before.cpu with loc := loc } } seen :=
                ⟨keeps.cpu, keeps.saved, keeps.masked, keeps.invariant⟩
              exact there.makeCall now call standing.1 standing.2 called
          · cases stepped
      | statement inputs =>
          dsimp only at stepped
          split at stepped
          · next standing => exact keeps.threadStatement program.entry inputs standing stepped
          · next statement below standing =>
              cases stepped
              exact keeps.scheduleStatement algorithm inputs standing
    · cases stepped

/-- The flag of the machine is set only at the start of a handler. -/
theorem KeepsMasks.masked_at_entry {machine : Machine N Loc} {state : SignalState N}
    (keeps : KeepsMasks machine state) (masked : machine.masked = true) :
    ∃ below, machine.cpu.activations = .resetSig :: below := by
  have held : holdsAlarm state.cpu = true :=
    keeps.invariant.cpu.agrees.1.symm.trans (keeps.masked.symm.trans masked)
  have cpu := keeps.cpu
  generalize state.cpu = stack at cpu held
  generalize machine.cpu.activations = activations, machine.cpu.activity = activity at cpu ⊢
  cases cpu with
  | thread _ oldMask => cases activity <;> cases held
  | @called statement oldMask below _ _ shown =>
      cases statement with
      | resetSig => exact ⟨below, rfl⟩
      | start | select | testCurrent | readyTest | readyWrite | runTest | runWrite | prepare
      | setCurrent | switch | finish => cases held
  | @delivered statement oldMask _ below _ _ shown =>
      cases statement with
      | resetSig => exact ⟨below, rfl⟩
      | start | select | testCurrent | readyTest | readyWrite | runTest | runWrite | prepare
      | setCurrent | switch | finish => cases held

/-- Whatever the program calls and whenever the alarms come, the scheduler run
statement by statement is in step with a run of the mask and the stacks, in which
the kernel and the code set the mask.  An alarm can be delivered in the one exactly
when it can in the other, and it waits only for a handler to get to
`gt_reset_sig`. -/
theorem preemption_keeps_masks [NeZero N] (algorithm : Algorithm) (program : Program)
    (clock : Nat → Timeval) (semaphores : List (Semaphore N)) {machine : Machine N program.Loc}
    (reached : (preemptive algorithm program).Reached PartialMachine.anyStep
      (bootMachine program clock semaphores) machine) :
    (∃ state, signalMasks.Reached PartialMachine.anyStep bootSignals state ∧
      Shows machine.cpu.activations machine.cpu.activity state.cpu ∧
      (∀ slot, Shows (machine.saved slot).activations (machine.saved slot).activity
        (state.saved slot)) ∧
      machine.masked = state.mask.sigalrm) ∧
    (machine.masked = true → ∃ below, machine.cpu.activations = .resetSig :: below) := by
  have boot : KeepsMasks (bootMachine program clock semaphores) (bootSignals : SignalState N) :=
    ⟨.thread .code ⟨false, false⟩, fun _ => .thread .code ⟨false, false⟩, rfl, .boot⟩
  obtain ⟨state, masksReached, keeps⟩ :=
    (keepsMasks_simulates algorithm program).reached boot reached
  exact ⟨⟨state, masksReached, keeps.cpu, keeps.saved, keeps.masked⟩, keeps.masked_at_entry⟩

/-- An alarm in the `update_thread_state` of `gt_create`. -/
theorem preemption_keeps_masks_in_create :
    ∃ machine : Machine maxGThreads Unit,
      (machine.masked = true ∧ machine.cpu.activity = .createTest 1) ∧
        ∃ below, machine.cpu.activations = .resetSig :: below := by
  obtain ⟨machine, reached, standing⟩ := PartialMachine.exists_reached_of_any
    (preemptive .roundRobin anyProgram) PartialMachine.anyStep
    (bootMachine anyProgram (fun _ => initTimeval) [])
    (.call (.gtCreate 0) initTimeval :: statements 10 0 ++ [.alarm])
    (fun machine : Machine maxGThreads Unit =>
      machine.masked = true ∧ machine.cpu.activity = .createTest 1)
    (by decide +kernel)
  exact ⟨machine, standing,
    (preemption_keeps_masks .roundRobin anyProgram _ [] reached).2 standing.1⟩

end Ivos.Scheduler
