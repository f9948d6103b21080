/-
Module: Ivos.Scheduler.ContextSwitch
Purpose: The assembly of `gt_switch` on saved contexts and stacks in one memory, and the
  first frame that `gt_create` builds, as a processor of its own for every thread.
Trusted boundary: what `Permitted` asks of thread code and of `gt_schedule`
Main exports: Register, gtContext, gtSwitchCode, Image, Hardware, Turn, hardware,
  Permitted, PrivateProcessors, privateProcessors, Virtualizes,
  context_switch_gives_private_processors, thread_resumes_where_it_left,
  created_thread_starts_in_its_function
-/
import Ivos.Library.ForwardSimulation
import Ivos.Library.WordMachine
import Ivos.Scheduler.Thread
import Mathlib.Algebra.GroupWithZero.Nat
import Mathlib.Order.Fin.Basic

namespace Ivos.Scheduler

open WordMachine

variable {N : Nat}

/-! ### The routine -/

/-- The registers that `gt_switch` names. -/
inductive Register where
  | rsp
  | r15
  | r14
  | r13
  | r12
  | rbx
  | rbp
  | rdi
  | rsi
deriving Repr, DecidableEq

/-- `struct gt_context`: its fields with their offsets. -/
def gtContext : List (Register × Nat) :=
  [(.rsp, 0x00), (.r15, 0x08), (.r14, 0x10), (.r13, 0x18), (.r12, 0x20), (.rbx, 0x28),
    (.rbp, 0x30)]

/-- `sizeof(struct gt_context)`. -/
def gtContextSize : Nat := 0x38

/-- `sizeof(struct gt)`: the context, the state, fourteen time values and counters of the
statistics, and four integers. -/
def gtSize : Nat := 288

/-- `gt_switch`. -/
def gtSwitchCode : List (Instruction Register) :=
  [.store .rsp 0x00 .rdi,
    .store .r15 0x08 .rdi,
    .store .r14 0x10 .rdi,
    .store .r13 0x18 .rdi,
    .store .r12 0x20 .rdi,
    .store .rbx 0x28 .rdi,
    .store .rbp 0x30 .rdi,
    .load 0x00 .rsi .rsp,
    .load 0x08 .rsi .r15,
    .load 0x10 .rsi .r14,
    .load 0x18 .rsi .r13,
    .load 0x20 .rsi .r12,
    .load 0x28 .rsi .rbx,
    .load 0x30 .rsi .rbp,
    .ret]

theorem gtSwitchCode_eq :
    gtSwitchCode = saves .rdi gtContext ++ (loads .rsi gtContext ++ [.ret]) := rfl

theorem gtContext_layout : FrameLayout gtContext gtContextSize where
  ascending := by decide
  fits := by decide
  registers := by decide
  small := by decide

theorem gtContext_fits : ∀ field ∈ gtContext, field.2 + 8 ≤ gtContextSize :=
  gtContext_layout.fits

theorem gtContextSize_small : gtContextSize ≤ 2 ^ 64 := gtContext_layout.small

/-- The saves of `gt_switch` write the context and nothing else. -/
theorem executeAll_saves_gtContext_outside (machine : WordMachine Register) {address : Word}
    (outside : ¬ InBlock (machine.register .rdi) gtContextSize address) :
    (executeAll .rsp (saves .rdi gtContext) machine).memory address = machine.memory address :=
  executeAll_saves_outside Register.rsp Register.rdi gtContext_fits gtContextSize_small machine
    outside

/-- A register of the context other than the stack pointer. -/
def KeptRegister (slot : Register × Nat) : Prop := slot ∈ gtContext ∧ slot.1 ≠ .rsp

/-- Those lie behind the stack pointer. -/
theorem KeptRegister.behind {slot : Register × Nat} (kept : KeptRegister slot) : 8 ≤ slot.2 := by
  have all : ∀ slot ∈ gtContext, slot.1 ≠ .rsp → 8 ≤ slot.2 := by decide
  exact all slot kept.1 kept.2

/-- What `gt_switch` leaves, from the memory behind its saves. -/
theorem executeAll_gtSwitchCode (machine : WordMachine Register) {saved : ByteMemory}
    (behindSaves : (executeAll .rsp (saves .rdi gtContext) machine).memory = saved) :
    let after := executeAll .rsp gtSwitchCode machine
    let stackPointer := saved.readWord (machine.register .rsi + BitVec.ofNat 64 0)
    after.memory = saved ∧ after.rip = saved.readWord stackPointer ∧
      after.register .rsp = stackPointer + 8 ∧
      ∀ slot, KeptRegister slot → after.register slot.1 =
        saved.readWord (machine.register .rsi + BitVec.ofNat 64 slot.2) := by
  intro after stackPointer
  let parked := executeAll .rsp (saves .rdi gtContext) machine
  let loaded := executeAll .rsp (loads .rsi gtContext) parked
  have returned : after = loaded.execute .rsp .ret := by
    unfold after loaded parked
    rw [gtSwitchCode_eq, executeAll_append, executeAll_append]
    rfl
  have memory : loaded.memory = saved := (executeAll_loads_memory ..).trans behindSaves
  have base : parked.register = machine.register := executeAll_saves_register ..
  have load : ∀ slot ∈ gtContext, loaded.register slot.1 =
      saved.readWord (machine.register .rsi + BitVec.ofNat 64 slot.2) := by
    intro slot member
    have step := executeAll_loads .rsp .rsi gtContext_layout.registers (by decide) parked member
    rw [base, behindSaves] at step
    exact step
  have top : loaded.register .rsp = stackPointer := load (.rsp, 0) (by decide)
  refine ⟨?_, ?_, ?_, ?_⟩
  · rw [returned]
    exact memory
  · rw [returned]
    change loaded.memory.readWord (loaded.register .rsp) = _
    rw [memory, top]
  · rw [returned, execute_ret_stackPointer, top]
  · intro slot kept
    rw [returned, execute_ret_other kept.2]
    exact load slot kept.1

/-! ### The machine

Threads, their stacks and `gt_table` share one memory, and what thread code does to registers
and memory is left open.  It has to spare the saved contexts and the return address on top of
each stack that has been switched out, and nothing else is asked of it.  `gt_schedule` is
represented by its choice, a slot in use that is not the exiting one; no signal arrives
inside `gt_switch`.
-/

/-- Where the linker put `gt_table` and the functions whose addresses are stored. -/
structure Image (N : Nat) where
  gtTable : Word
  gtSwitch : Word
  gtStop : Word
  fits : gtTable.toNat + N * gtSize ≤ 2 ^ 64

/-- `&gt_table[slot].ctx`. -/
def Image.ctx (image : Image N) (slot : Fin N) : Word :=
  image.gtTable + BitVec.ofNat 64 (slot * gtSize)

/-- The stack pointer that `gt_create` stores for a stack block. -/
def firstStackPointer (stack : Word) : Word := stack + BitVec.ofNat 64 (stackSize - 16)

/-- The two words that `gt_create` puts at the end of a stack block. -/
def Image.firstFrame (image : Image N) (f stack : Word) (memory : ByteMemory) : ByteMemory :=
  (memory.writeWord (stack + BitVec.ofNat 64 (stackSize - 8)) image.gtStop).writeWord
    (firstStackPointer stack) f

/-- The registers, the memory, `gt_current`, and which slots are not Unused. -/
structure Hardware (N : Nat) where
  machine : WordMachine Register
  gtCurrent : Fin N
  inUse : Fin N → Bool

/-- What happens between two moments at which thread code runs. -/
inductive Turn (N : Nat) where
  /-- Code of the current thread runs, with what it leaves and writes. -/
  | compute (register : Register → Word) (rip : Word) (writes : List (Word × BitVec 8))
  /-- `gt_schedule` chose a thread and calls `gt_switch`. -/
  | gtSwitch (returnAddress : Word) (p : Fin N)
  /-- The same behind `state = Unused` in `gt_return`. -/
  | gtReturn (returnAddress : Word) (p : Fin N)
  /-- `gt_create` with what `malloc` returned. -/
  | gtCreate (f : Word) (stack : Option Word)

/-- The search of `gt_create`. -/
def firstUnused (inUse : Fin N → Bool) : Option (Fin N) :=
  (List.finRange N).find? fun p => !inUse p

namespace Hardware

variable (image : Image N) (hw : Hardware N)

/-- The call of `gt_switch` with the contexts of the current thread and of `p`. -/
def callSwitch (returnAddress : Word) (p : Fin N) : WordMachine Register :=
  let arguments := { hw.machine with
    register := Function.update
      (Function.update hw.machine.register .rdi (image.ctx hw.gtCurrent)) .rsi (image.ctx p) }
  arguments.call .rsp returnAddress image.gtSwitch

/-- The end of `gt_schedule`. -/
def switch (returnAddress : Word) (p : Fin N) : Hardware N :=
  { hw with
    machine := executeAll .rsp gtSwitchCode (hw.callSwitch image returnAddress p)
    gtCurrent := p }

/-- The memory behind the saves of that call. -/
def savedMemory (returnAddress : Word) (p : Fin N) : ByteMemory :=
  (executeAll .rsp (saves .rdi gtContext) (hw.callSwitch image returnAddress p)).memory

/-- `gt_create`: the frame at the end of the stack block, and the stack pointer. -/
def create (f : Word) (stack : Option Word) : Hardware N :=
  match firstUnused hw.inUse, stack with
  | some p, some stack =>
      let memory := image.firstFrame f stack hw.machine.memory
      { hw with
        machine := { hw.machine with
          memory := memory.writeWord (image.ctx p + BitVec.ofNat 64 0) (firstStackPointer stack) }
        inUse := Function.update hw.inUse p true }
  | _, _ => hw

/-- The saved stack pointer of a thread: where the word is that `ret` will take. -/
def returnSlot (slot : Fin N) : Word :=
  hw.machine.memory.readWord (image.ctx slot + BitVec.ofNat 64 0)

/-- The bytes that code of the current thread has to leave alone: the contexts, and the
return addresses of the threads switched out. -/
def Guarded (address : Word) : Prop :=
  (∃ slot, InBlock (image.ctx slot) gtContextSize address) ∨
    ∃ slot, slot ≠ hw.gtCurrent ∧ hw.inUse slot = true ∧
      InBlock (hw.returnSlot image slot) 8 address

/-- A block with no guarded byte. -/
def Free (start : Word) (size : Nat) : Prop :=
  ∀ address, InBlock start size address → ¬ hw.Guarded image address

end Hardware

/-- The threads on one processor. -/
def hardware (image : Image N) : PartialMachine (Hardware N) (Turn N) where
  step hw turn :=
    match turn with
    | .compute register rip writes =>
        some { hw with machine := ⟨register, rip, hw.machine.memory.writeBytes writes⟩ }
    | .gtSwitch returnAddress p => some (hw.switch image returnAddress p)
    | .gtReturn returnAddress p =>
        some ({ hw with inUse := Function.update hw.inUse hw.gtCurrent false }.switch image
          returnAddress p)
    | .gtCreate f stack => some (hw.create image f stack)

/-- Code writes no guarded byte, a call of `gt_switch` pushes onto a stack of the thread's
own and chooses a thread that is in use, and `malloc` returns a block that is free. -/
def Permitted (image : Image N) (hw : Hardware N) : Turn N → Prop
  | .compute _ _ writes => ∀ write ∈ writes, ¬ hw.Guarded image write.1
  | .gtSwitch _ p => hw.inUse p = true ∧ hw.Free image (hw.machine.register .rsp - 8) 8
  | .gtReturn _ p =>
      p ≠ hw.gtCurrent ∧ hw.inUse p = true ∧ hw.Free image (hw.machine.register .rsp - 8) 8
  | .gtCreate _ stack =>
      ∀ block ∈ stack, hw.Free image (firstStackPointer block) 16

/-! ### A processor for every thread

The abstract machine has no contexts.  A thread that is switched out keeps its registers in
a processor of its own, where nobody else can change them; memory is still shared.
-/

/-- What a thread sees of the processor. -/
structure Processor where
  register : Register → Word
  rip : Word

/-- Threads that each have a processor, with one of them running. -/
structure PrivateProcessors (N : Nat) where
  processor : Fin N → Processor
  memory : ByteMemory
  gtCurrent : Fin N
  inUse : Fin N → Bool

namespace PrivateProcessors

variable (threads : PrivateProcessors N)

/-- For the thread that calls it, `gt_switch` pushes the return address, pops it, and
changes nothing else. -/
def switch (returnAddress : Word) (p : Fin N) : PrivateProcessors N :=
  let running := threads.processor threads.gtCurrent
  { threads with
    processor := Function.update threads.processor threads.gtCurrent
      { running with rip := returnAddress }
    memory := threads.memory.writeWord (running.register .rsp - 8) returnAddress
    gtCurrent := p }

/-- A new thread is about to run the first instruction of `f`, with the address of `gt_stop`
where a caller's return address stands. -/
def create (image : Image N) (f : Word) (stack : Option Word) : PrivateProcessors N :=
  match firstUnused threads.inUse, stack with
  | some p, some stack =>
      { threads with
        processor := Function.update threads.processor p
          { register := Function.update (threads.processor p).register .rsp
              (firstStackPointer stack + 8)
            rip := f }
        memory := image.firstFrame f stack threads.memory
        inUse := Function.update threads.inUse p true }
  | _, _ => threads

end PrivateProcessors

/-- The threads on processors of their own. -/
def privateProcessors (image : Image N) : PartialMachine (PrivateProcessors N) (Turn N) where
  step threads turn :=
    match turn with
    | .compute register rip writes =>
        some { threads with
          processor := Function.update threads.processor threads.gtCurrent ⟨register, rip⟩
          memory := threads.memory.writeBytes writes }
    | .gtSwitch returnAddress p => some (threads.switch returnAddress p)
    | .gtReturn returnAddress p =>
        some ({ threads with
          inUse := Function.update threads.inUse threads.gtCurrent false }.switch
          returnAddress p)
    | .gtCreate f stack => some (threads.create image f stack)

/-! ### Saved contexts -/

/-- The context of a slot holds the callee-saved registers of a processor. -/
def HoldsRegisters (image : Image N) (memory : ByteMemory) (slot : Fin N)
    (processor : Processor) : Prop :=
  ∀ field, KeptRegister field →
    memory.readWord (image.ctx slot + BitVec.ofNat 64 field.2) = processor.register field.1

/-- The context of a slot holds a stack pointer below which `ret` finds where a processor
goes on. -/
structure Suspended (image : Image N) (memory : ByteMemory) (slot : Fin N)
    (processor : Processor) : Prop where
  stackPointer :
    memory.readWord (image.ctx slot + BitVec.ofNat 64 0) + 8 = processor.register .rsp
  returnAddress :
    memory.readWord (memory.readWord (image.ctx slot + BitVec.ofNat 64 0)) = processor.rip
  outside : ∀ other, Apart (memory.readWord (image.ctx slot + BitVec.ofNat 64 0)) 8
    (image.ctx other) gtContextSize

/-- The one processor stands for a processor of every thread. -/
structure Virtualizes (image : Image N) (hw : Hardware N) (threads : PrivateProcessors N) :
    Prop where
  gtCurrent : threads.gtCurrent = hw.gtCurrent
  inUse : threads.inUse = hw.inUse
  currentInUse : hw.inUse hw.gtCurrent = true
  running : ∀ field ∈ gtContext,
    hw.machine.register field.1 = (threads.processor hw.gtCurrent).register field.1
  rip : hw.machine.rip = (threads.processor hw.gtCurrent).rip
  registers : ∀ slot, slot ≠ hw.gtCurrent →
    HoldsRegisters image hw.machine.memory slot (threads.processor slot)
  suspended : ∀ slot, slot ≠ hw.gtCurrent → hw.inUse slot = true →
    Suspended image hw.machine.memory slot (threads.processor slot)
  memory : ∀ address, (∀ slot, ¬ InBlock (image.ctx slot) gtContextSize address) →
    hw.machine.memory address = threads.memory address

section Contexts

variable {image : Image N} {memory other : ByteMemory} {slot : Fin N} {processor : Processor}

/-- The contexts of two slots have no byte in common. -/
theorem Image.ctx_apart (image : Image N) {first second : Fin N} (different : first ≠ second) :
    Apart (image.ctx first) gtContextSize (image.ctx second) gtContextSize := by
  have fits := image.fits
  have inTable : ∀ slot : Fin N, slot * gtSize + gtSize ≤ N * gtSize := by
    intro slot
    have more := Nat.mul_le_mul_right gtSize slot.isLt
    rw [Nat.succ_mul] at more
    exact more
  have below : ∀ {low high : Fin N}, low < high → low * gtSize + gtSize ≤ high * gtSize := by
    intro low high order
    have more := Nat.mul_le_mul_right gtSize (show low.val + 1 ≤ high.val from order)
    rw [Nat.succ_mul] at more
    exact more
  have sizes : gtContextSize ≤ gtSize := by decide
  rcases lt_or_gt_of_ne different with order | order
  · refine apart_of_offsets _ (Nat.le_trans (by omega) (below order)) ?_
    have last := inTable second
    omega
  · refine (apart_of_offsets _ (Nat.le_trans (by omega) (below order)) ?_).symm
    have last := inTable first
    omega

/-- The bytes of a field are bytes of the context. -/
theorem inContext_of_field {field : Register × Nat} (member : field ∈ gtContext) {address : Word}
    (inside : InBlock (image.ctx slot + BitVec.ofNat 64 field.2) 8 address) :
    InBlock (image.ctx slot) gtContextSize address :=
  inside.of_part (gtContext_fits field member) gtContextSize_small

theorem HoldsRegisters.congr
    (same : ∀ address, InBlock (image.ctx slot) gtContextSize address →
      memory address = other address)
    (holds : HoldsRegisters image memory slot processor) :
    HoldsRegisters image other slot processor := by
  intro field kept
  rw [← holds field kept]
  exact (ByteMemory.readWord_congr fun address inside =>
    same address (inContext_of_field kept.1 inside)).symm

/-- The saved stack pointer is part of the context. -/
theorem stackPointer_congr
    (same : ∀ address, InBlock (image.ctx slot) gtContextSize address →
      memory address = other address) :
    memory.readWord (image.ctx slot + BitVec.ofNat 64 0) =
      other.readWord (image.ctx slot + BitVec.ofNat 64 0) := by
  have member : (Register.rsp, 0) ∈ gtContext := by decide
  exact ByteMemory.readWord_congr fun address inside =>
    same address (inContext_of_field member inside)

theorem Suspended.congr
    (same : ∀ address, InBlock (image.ctx slot) gtContextSize address →
      memory address = other address)
    (sameReturn : ∀ address,
      InBlock (memory.readWord (image.ctx slot + BitVec.ofNat 64 0)) 8 address →
        memory address = other address)
    (suspended : Suspended image memory slot processor) :
    Suspended image other slot processor := by
  have sameTop := stackPointer_congr same
  refine ⟨?_, ?_, ?_⟩
  · rw [← sameTop]
    exact suspended.stackPointer
  · rw [← sameTop, ← ByteMemory.readWord_congr sameReturn]
    exact suspended.returnAddress
  · rw [← sameTop]
    exact suspended.outside

end Contexts
/-! ### One turn -/

namespace Virtualizes

variable {image : Image N} {hw : Hardware N} {threads : PrivateProcessors N}
  (represented : Virtualizes image hw threads)

include represented

/-- Bytes that are not guarded belong to no context, and to no return address of a thread
switched out. -/
theorem keeps {memory : ByteMemory}
    (same : ∀ address, hw.Guarded image address → hw.machine.memory address = memory address)
    (slot : Fin N) (notCurrent : slot ≠ hw.gtCurrent) :
    HoldsRegisters image memory slot (threads.processor slot) ∧
      (hw.inUse slot = true → Suspended image memory slot (threads.processor slot)) := by
  have sameContext : ∀ address, InBlock (image.ctx slot) gtContextSize address →
      hw.machine.memory address = memory address :=
    fun address inside => same address (.inl ⟨slot, inside⟩)
  refine ⟨(represented.registers slot notCurrent).congr sameContext, fun used => ?_⟩
  exact (represented.suspended slot notCurrent used).congr sameContext fun address inside =>
    same address (.inr ⟨slot, notCurrent, used, inside⟩)

/-- Code of the current thread. -/
theorem compute {register : Register → Word} {rip : Word} {writes : List (Word × BitVec 8)}
    (unguarded : ∀ write ∈ writes, ¬ hw.Guarded image write.1) :
    Virtualizes image
      { hw with machine := ⟨register, rip, hw.machine.memory.writeBytes writes⟩ }
      { threads with
        processor := Function.update threads.processor threads.gtCurrent ⟨register, rip⟩
        memory := threads.memory.writeBytes writes } := by
  have same : ∀ address, hw.Guarded image address →
      hw.machine.memory address = hw.machine.memory.writeBytes writes address := by
    intro address guarded
    refine (ByteMemory.writeBytes_outside _ fun write member isAddress => ?_).symm
    exact unguarded write member (isAddress ▸ guarded)
  have running : Function.update threads.processor threads.gtCurrent ⟨register, rip⟩
      hw.gtCurrent = ⟨register, rip⟩ := by
    rw [represented.gtCurrent, Function.update_self]
  have others : ∀ slot, slot ≠ hw.gtCurrent →
      Function.update threads.processor threads.gtCurrent ⟨register, rip⟩ slot =
        threads.processor slot := by
    intro slot notCurrent
    rw [represented.gtCurrent, Function.update_of_ne notCurrent]
  refine ⟨represented.gtCurrent, represented.inUse, represented.currentInUse, ?_, ?_, ?_, ?_, ?_⟩
  · intro field _
    dsimp only
    rw [running]
  · dsimp only
    rw [running]
  · intro slot notCurrent
    dsimp only
    rw [others slot notCurrent]
    exact (represented.keeps same slot notCurrent).1
  · intro slot notCurrent used
    dsimp only
    rw [others slot notCurrent]
    exact (represented.keeps same slot notCurrent).2 used
  · intro address outside
    exact ByteMemory.writeBytes_agree (represented.memory address outside) writes

end Virtualizes

section Switching

variable {image : Image N} {hw : Hardware N} {returnAddress : Word} {p : Fin N}

theorem callSwitch_rdi :
    (hw.callSwitch image returnAddress p).register .rdi = image.ctx hw.gtCurrent := rfl

theorem callSwitch_rsp :
    (hw.callSwitch image returnAddress p).register .rsp = hw.machine.register .rsp - 8 := rfl

theorem callSwitch_memory : (hw.callSwitch image returnAddress p).memory =
    hw.machine.memory.writeWord (hw.machine.register .rsp - 8) returnAddress := rfl

/-- The call leaves the callee-saved registers alone. -/
theorem callSwitch_kept {field : Register × Nat} (kept : KeptRegister field) :
    (hw.callSwitch image returnAddress p).register field.1 = hw.machine.register field.1 := by
  have noArgument : ∀ field ∈ gtContext, field.1 ≠ .rdi ∧ field.1 ≠ .rsi := by decide
  obtain ⟨notFirst, notSecond⟩ := noArgument field kept.1
  exact (Function.update_of_ne kept.2 ..).trans
    ((Function.update_of_ne notSecond ..).trans (Function.update_of_ne notFirst ..))

/-- Each field of the context of the thread switched out. -/
theorem savedMemory_field {field : Register × Nat} (member : field ∈ gtContext) :
    (hw.savedMemory image returnAddress p).readWord
        (image.ctx hw.gtCurrent + BitVec.ofNat 64 field.2) =
      (hw.callSwitch image returnAddress p).register field.1 := by
  have stored := executeAll_saves .rsp .rdi gtContext_layout
    (hw.callSwitch image returnAddress p) member
  rw [callSwitch_rdi] at stored
  unfold Hardware.savedMemory
  exact stored

/-- Outside that context, the call has only pushed its return address. -/
theorem savedMemory_outside {address : Word}
    (outside : ¬ InBlock (image.ctx hw.gtCurrent) gtContextSize address) :
    hw.savedMemory image returnAddress p address =
      hw.machine.memory.writeWord (hw.machine.register .rsp - 8) returnAddress address := by
  have kept := executeAll_saves_gtContext_outside (hw.callSwitch image returnAddress p) outside
  rw [callSwitch_memory] at kept
  exact kept

variable (image hw returnAddress p) in
/-- What `gt_switch` leaves. -/
theorem switch_machine :
    let saved := hw.savedMemory image returnAddress p
    let after := (hw.switch image returnAddress p).machine
    let stackPointer := saved.readWord (image.ctx p + BitVec.ofNat 64 0)
    after.memory = saved ∧ after.rip = saved.readWord stackPointer ∧
      after.register .rsp = stackPointer + 8 ∧
      ∀ field, KeptRegister field → after.register field.1 =
        saved.readWord (image.ctx p + BitVec.ofNat 64 field.2) :=
  executeAll_gtSwitchCode (hw.callSwitch image returnAddress p) rfl

end Switching

namespace Virtualizes

variable {image : Image N} {hw : Hardware N} {threads : PrivateProcessors N}
  (represented : Virtualizes image hw threads) (returnAddress : Word) (p : Fin N)

include represented

/-- The thread switched out finds itself in its context. -/
theorem saved_current (free : hw.Free image (hw.machine.register .rsp - 8) 8) :
    let running := threads.processor hw.gtCurrent
    let memory := hw.savedMemory image returnAddress p
    HoldsRegisters image memory hw.gtCurrent { running with rip := returnAddress } ∧
      Suspended image memory hw.gtCurrent { running with rip := returnAddress } := by
  intro running memory
  have noContext : ∀ address other, InBlock (hw.machine.register .rsp - 8) 8 address →
      ¬ InBlock (image.ctx other) gtContextSize address :=
    fun address other inside inContext => free address inside (.inl ⟨other, inContext⟩)
  have member : (Register.rsp, 0) ∈ gtContext := by decide
  have top : memory.readWord (image.ctx hw.gtCurrent + BitVec.ofNat 64 0) =
      hw.machine.register .rsp - 8 := (savedMemory_field member).trans callSwitch_rsp
  refine ⟨fun field kept => ?_, ⟨?_, ?_, ?_⟩⟩
  · rw [savedMemory_field kept.1, callSwitch_kept kept]
    exact represented.running field kept.1
  · rw [top, BitVec.sub_add_cancel]
    exact represented.running (.rsp, 0) (by decide)
  · rw [top]
    calc memory.readWord (hw.machine.register .rsp - 8)
        = (hw.machine.memory.writeWord (hw.machine.register .rsp - 8) returnAddress).readWord
            (hw.machine.register .rsp - 8) :=
          ByteMemory.readWord_congr fun address inside =>
            savedMemory_outside (noContext address hw.gtCurrent inside)
      _ = returnAddress := ByteMemory.readWord_writeWord ..
  · rw [top]
    exact fun other address inside => noContext address other inside

/-- The other contexts stay as they are. -/
theorem saved_other (free : hw.Free image (hw.machine.register .rsp - 8) 8) {slot : Fin N}
    (notCurrent : slot ≠ hw.gtCurrent) :
    let memory := hw.savedMemory image returnAddress p
    HoldsRegisters image memory slot (threads.processor slot) ∧
      (hw.inUse slot = true → Suspended image memory slot (threads.processor slot)) := by
  intro memory
  have pushed : ∀ address, hw.Guarded image address → hw.machine.memory address =
      hw.machine.memory.writeWord (hw.machine.register .rsp - 8) returnAddress address :=
    fun address guarded =>
      (ByteMemory.writeWord_outside _ _ fun inside => free address inside guarded).symm
  have sameContext : ∀ address, InBlock (image.ctx slot) gtContextSize address →
      hw.machine.memory address = memory address := fun address inside =>
    (pushed address (.inl ⟨slot, inside⟩)).trans
      (savedMemory_outside (image.ctx_apart notCurrent address inside)).symm
  refine ⟨(represented.registers slot notCurrent).congr sameContext, fun used => ?_⟩
  have suspended := represented.suspended slot notCurrent used
  refine suspended.congr sameContext fun address inside => ?_
  exact (pushed address (.inr ⟨slot, notCurrent, used, inside⟩)).trans
    (savedMemory_outside (suspended.outside hw.gtCurrent address inside)).symm

/-- Behind the saves of `gt_switch` every context holds its thread. -/
theorem saved_all (free : hw.Free image (hw.machine.register .rsp - 8) 8) (slot : Fin N) :
    let memory := hw.savedMemory image returnAddress p
    let processor := (threads.switch returnAddress p).processor slot
    HoldsRegisters image memory slot processor ∧
      (hw.inUse slot = true → Suspended image memory slot processor) := by
  intro memory processor
  have isProcessor : processor = Function.update threads.processor hw.gtCurrent
      { threads.processor hw.gtCurrent with rip := returnAddress } slot := by
    unfold processor PrivateProcessors.switch
    rw [represented.gtCurrent]
  by_cases isCurrent : slot = hw.gtCurrent
  · subst isCurrent
    rw [isProcessor, Function.update_self]
    have saved := represented.saved_current returnAddress p free
    exact ⟨saved.1, fun _ => saved.2⟩
  · rw [isProcessor, Function.update_of_ne isCurrent]
    exact represented.saved_other returnAddress p free isCurrent

/-- `gt_switch`, called by a thread that stays in use or by one that does not. -/
theorem switch {inUse seenInUse : Fin N → Bool} (sameUse : seenInUse = inUse)
    (fewer : ∀ slot, inUse slot = true → hw.inUse slot = true) (resumable : inUse p = true)
    (free : hw.Free image (hw.machine.register .rsp - 8) 8) :
    Virtualizes image { hw.switch image returnAddress p with inUse := inUse }
      { threads.switch returnAddress p with inUse := seenInUse } := by
  obtain ⟨memory, rip, stackPointer, registers⟩ :=
    switch_machine image hw returnAddress p
  have saved := represented.saved_all returnAddress p free
  obtain ⟨resumedRegisters, resumed⟩ := saved p
  have resumed := resumed (fewer p resumable)
  refine ⟨rfl, sameUse, resumable, ?_, ?_, ?_, ?_, ?_⟩
  · intro field member
    by_cases isTop : field.1 = .rsp
    · have onlyTop : ∀ field ∈ gtContext, field.1 = .rsp → field = (.rsp, 0) := by decide
      obtain rfl := onlyTop field member isTop
      exact stackPointer.trans resumed.stackPointer
    · exact (registers field ⟨member, isTop⟩).trans (resumedRegisters field ⟨member, isTop⟩)
  · exact rip.trans resumed.returnAddress
  · intro slot _
    dsimp only
    rw [memory]
    exact (saved slot).1
  · intro slot _ used
    dsimp only
    rw [memory]
    exact (saved slot).2 (fewer slot used)
  · intro address outside
    dsimp only
    rw [memory, savedMemory_outside (outside hw.gtCurrent)]
    unfold PrivateProcessors.switch
    dsimp only
    rw [represented.gtCurrent, ← represented.running (.rsp, 0) (by decide)]
    exact ByteMemory.writeWord_agree (represented.memory address outside) ..

end Virtualizes

section FirstFrame

variable (image : Image N) (f stack : Word) (memory : ByteMemory)

/-- The word behind the one that the stored stack pointer points at. -/
theorem firstStackPointer_add : firstStackPointer stack + 8 =
    stack + BitVec.ofNat 64 (stackSize - 8) := by
  unfold firstStackPointer
  rw [BitVec.add_assoc]
  rfl

theorem firstFrame_outside {address : Word}
    (outside : ¬ InBlock (firstStackPointer stack) 16 address) :
    image.firstFrame f stack memory address = memory address := by
  have notFirst : ¬ InBlock (firstStackPointer stack) 8 address := fun inside => outside <| by
    unfold InBlock at inside ⊢
    omega
  have notSecond : ¬ InBlock (stack + BitVec.ofNat 64 (stackSize - 8)) 8 address := by
    rw [← firstStackPointer_add]
    exact fun inside => outside (inside.of_part (show 8 + 8 ≤ 16 by decide) (by decide))
  unfold Image.firstFrame
  rw [ByteMemory.writeWord_outside _ _ notFirst, ByteMemory.writeWord_outside _ _ notSecond]

/-- Its first word is where `ret` of `gt_switch` goes. -/
theorem firstFrame_entry :
    (image.firstFrame f stack memory).readWord (firstStackPointer stack) = f :=
  ByteMemory.readWord_writeWord ..

/-- Its second word is where `ret` of the function goes. -/
theorem firstFrame_exit :
    (image.firstFrame f stack memory).readWord (firstStackPointer stack + 8) = image.gtStop := by
  have apart : Apart (firstStackPointer stack) 8
      (stack + BitVec.ofNat 64 (stackSize - 8)) 8 :=
    apart_of_offsets stack (by decide) (by decide)
  unfold Image.firstFrame
  rw [firstStackPointer_add, ByteMemory.readWord_writeWord_apart _ apart,
    ByteMemory.readWord_writeWord]

variable {memory}

theorem firstFrame_agree {other : ByteMemory} {address : Word}
    (same : memory address = other address) :
    image.firstFrame f stack memory address = image.firstFrame f stack other address :=
  ByteMemory.writeWord_agree (ByteMemory.writeWord_agree same ..) ..

end FirstFrame

namespace Virtualizes

variable {image : Image N} {hw : Hardware N} {threads : PrivateProcessors N}
  (represented : Virtualizes image hw threads)

include represented

/-- The context that `gt_create` leaves in the slot it takes. -/
theorem created_slot {p : Fin N} (notCurrent : p ≠ hw.gtCurrent) {f stack : Word}
    (free : hw.Free image (firstStackPointer stack) 16) :
    let memory := (image.firstFrame f stack hw.machine.memory).writeWord
      (image.ctx p + BitVec.ofNat 64 0) (firstStackPointer stack)
    let register := Function.update (threads.processor p).register .rsp
      (firstStackPointer stack + 8)
    HoldsRegisters image memory p ⟨register, f⟩ ∧ Suspended image memory p ⟨register, f⟩ := by
  intro memory register
  have noContext : ∀ address other, InBlock (firstStackPointer stack) 8 address →
      ¬ InBlock (image.ctx other) gtContextSize address := by
    intro address other inside inContext
    refine free address ?_ (.inl ⟨other, inContext⟩)
    unfold InBlock at inside ⊢
    omega
  have top : memory.readWord (image.ctx p + BitVec.ofNat 64 0) = firstStackPointer stack :=
    ByteMemory.readWord_writeWord ..
  refine ⟨fun field kept => ?_, ⟨?_, ?_, ?_⟩⟩
  · have isRegister : register field.1 = (threads.processor p).register field.1 :=
      Function.update_of_ne kept.2 ..
    change memory.readWord _ = register field.1
    rw [isRegister, ← represented.registers p notCurrent field kept]
    have small := Nat.le_trans (gtContext_fits field kept.1) gtContextSize_small
    rw [ByteMemory.readWord_writeWord_apart _
      (apart_of_offsets (image.ctx p) (Nat.le_trans (by decide) kept.behind) small)]
    refine ByteMemory.readWord_congr fun address inside => ?_
    exact firstFrame_outside image f stack _ fun inFrame =>
      free address inFrame (.inl ⟨p, inContext_of_field kept.1 inside⟩)
  · have isTop : register .rsp = firstStackPointer stack + 8 := Function.update_self ..
    rw [top]
    exact isTop.symm
  · rw [top]
    calc memory.readWord (firstStackPointer stack)
        = (image.firstFrame f stack hw.machine.memory).readWord (firstStackPointer stack) :=
          ByteMemory.readWord_congr fun address inside =>
            ByteMemory.writeWord_outside _ _ fun inField =>
              noContext address p inside (inContext_of_field
                (show (Register.rsp, 0) ∈ gtContext by decide) inField)
      _ = f := firstFrame_entry ..
  · rw [top]
    exact fun other address inside => noContext address other inside

/-- `gt_create` leaves the other contexts alone. -/
theorem created_other {p slot : Fin N} (notCurrent : slot ≠ hw.gtCurrent) (different : slot ≠ p)
    {f stack : Word} (free : hw.Free image (firstStackPointer stack) 16) :
    let memory := (image.firstFrame f stack hw.machine.memory).writeWord
      (image.ctx p + BitVec.ofNat 64 0) (firstStackPointer stack)
    HoldsRegisters image memory slot (threads.processor slot) ∧
      (hw.inUse slot = true → Suspended image memory slot (threads.processor slot)) := by
  intro memory
  have inFirst : ∀ {address}, InBlock (image.ctx p + BitVec.ofNat 64 0) 8 address →
      InBlock (image.ctx p) gtContextSize address := fun inside =>
    inContext_of_field (show (Register.rsp, 0) ∈ gtContext by decide) inside
  have written : ∀ address, hw.Guarded image address →
      ¬ InBlock (image.ctx p) gtContextSize address → hw.machine.memory address = memory address :=
    fun address guarded notSlot =>
      ((ByteMemory.writeWord_outside _ _ fun inside => notSlot (inFirst inside)).trans
        (firstFrame_outside image f stack _ fun inside => free address inside guarded)).symm
  have sameContext : ∀ address, InBlock (image.ctx slot) gtContextSize address →
      hw.machine.memory address = memory address := fun address inside =>
    written address (.inl ⟨slot, inside⟩) (image.ctx_apart different address inside)
  refine ⟨(represented.registers slot notCurrent).congr sameContext, fun used => ?_⟩
  have suspended := represented.suspended slot notCurrent used
  exact suspended.congr sameContext fun address inside =>
    written address (.inr ⟨slot, notCurrent, used, inside⟩) (suspended.outside p address inside)

/-- `gt_create`. -/
theorem create {f : Word} {stack : Option Word}
    (free : ∀ block ∈ stack, hw.Free image (firstStackPointer block) 16) :
    Virtualizes image (hw.create image f stack) (threads.create image f stack) := by
  unfold Hardware.create PrivateProcessors.create
  rw [represented.inUse]
  cases found : firstUnused hw.inUse with
  | none => exact represented
  | some p =>
      cases stack with
      | none => exact represented
      | some block =>
          have free := free block rfl
          have unused : hw.inUse p = false := by
            have searched := List.find?_some found
            simpa using searched
          have notCurrent : hw.gtCurrent ≠ p := by
            intro isCurrent
            have used := represented.currentInUse
            rw [isCurrent, unused] at used
            cases used
          refine ⟨represented.gtCurrent, rfl, ?_, ?_, ?_, ?_, ?_, ?_⟩
          · exact (Function.update_of_ne notCurrent ..).trans represented.currentInUse
          · intro field member
            dsimp only
            rw [Function.update_of_ne notCurrent]
            exact represented.running field member
          · dsimp only
            rw [Function.update_of_ne notCurrent]
            exact represented.rip
          · intro slot other
            dsimp only
            by_cases isSlot : slot = p
            · subst isSlot
              rw [Function.update_self]
              exact (represented.created_slot other free).1
            · rw [Function.update_of_ne isSlot]
              exact (represented.created_other other isSlot free).1
          · intro slot other used
            dsimp only at used ⊢
            by_cases isSlot : slot = p
            · subst isSlot
              rw [Function.update_self]
              exact (represented.created_slot other free).2
            · rw [Function.update_of_ne isSlot] at used ⊢
              exact (represented.created_other other isSlot free).2 used
          · intro address outside
            dsimp only
            rw [ByteMemory.writeWord_outside _ _ fun inside => outside p (inContext_of_field
              (show (Register.rsp, 0) ∈ gtContext by decide) inside)]
            exact firstFrame_agree image f block (represented.memory address outside)

/-- Every turn. -/
theorem step {turn : Turn N} {after : Hardware N} (permitted : Permitted image hw turn)
    (stepped : (hardware image).step hw turn = some after) :
    ∃ next, (privateProcessors image).step threads turn = some next ∧
      Virtualizes image after next := by
  cases turn with
  | compute register rip writes =>
      cases stepped
      exact ⟨_, rfl, represented.compute permitted⟩
  | gtSwitch returnAddress p =>
      cases stepped
      refine ⟨_, rfl, ?_⟩
      exact represented.switch returnAddress p represented.inUse (fun _ used => used)
        permitted.1 permitted.2
  | gtReturn returnAddress p =>
      cases stepped
      obtain ⟨different, used, free⟩ := permitted
      refine ⟨_, rfl, ?_⟩
      have resumable : Function.update hw.inUse hw.gtCurrent false p = true :=
        (Function.update_of_ne different ..).trans used
      have fewer : ∀ slot, Function.update hw.inUse hw.gtCurrent false slot = true →
          hw.inUse slot = true := by
        intro slot stays
        by_cases isCurrent : slot = hw.gtCurrent
        · rw [isCurrent, Function.update_self] at stays
          cases stays
        · rwa [Function.update_of_ne isCurrent] at stays
      have sameUse : Function.update threads.inUse threads.gtCurrent false =
          Function.update hw.inUse hw.gtCurrent false := by
        rw [represented.gtCurrent, represented.inUse]
      exact represented.switch returnAddress p sameUse fewer resumable free
  | gtCreate f stack =>
      cases stepped
      exact ⟨_, rfl, represented.create permitted⟩

end Virtualizes

/-- The one processor and the private ones take the same turns. -/
theorem hardware_lockstep (image : Image N) :
    Lockstep (hardware image) (Permitted image) (privateProcessors image)
      (Virtualizes image) where
  step := fun represented permitted stepped => represented.step permitted stepped

/-- Blocks far enough from the contexts and from the return addresses are free. -/
theorem Hardware.free_of_distances {image : Image N} {hw : Hardware N} {start : Word} {size : Nat}
    (contexts : ∀ slot, size ≤ (image.ctx slot - start).toNat ∧
      gtContextSize ≤ (start - image.ctx slot).toNat)
    (returns : ∀ slot, slot ≠ hw.gtCurrent → hw.inUse slot = true →
      size ≤ (hw.returnSlot image slot - start).toNat ∧
        8 ≤ (start - hw.returnSlot image slot).toNat) : hw.Free image start size := by
  rintro address inside (⟨slot, inContext⟩ | ⟨slot, notCurrent, used, inReturn⟩)
  · exact apart_of_distances (contexts slot).1 (contexts slot).2 address inside inContext
  · obtain ⟨behind, before⟩ := returns slot notCurrent used
    exact apart_of_distances behind before address inside inReturn

/-! ### Runs -/

/-- The field of `struct gt_context` for a register. -/
def Register.offset (register : Register) : Nat := (gtContext.lookup register).getD 0

theorem offset_eq : ∀ field ∈ gtContext, field.1.offset = field.2 := by decide

section Runs

variable [NeZero N]

/-- The state behind `gt_init`: the initial thread runs, the other slots are Unused. -/
def Hardware.init (machine : WordMachine Register) : Hardware N :=
  { machine := machine, gtCurrent := 0, inUse := fun slot => decide (slot = 0) }

/-- The same with a processor for every slot.  That of an Unused slot is what its context
happens to hold. -/
def PrivateProcessors.init (image : Image N) (machine : WordMachine Register) :
    PrivateProcessors N :=
  { processor := fun slot =>
      if slot = 0 then ⟨machine.register, machine.rip⟩
      else
        { register := fun register =>
            machine.memory.readWord (image.ctx slot + BitVec.ofNat 64 register.offset)
          rip := 0 }
    memory := machine.memory
    gtCurrent := 0
    inUse := fun slot => decide (slot = 0) }

theorem virtualizes_init (image : Image N) (machine : WordMachine Register) :
    Virtualizes image (Hardware.init machine) (PrivateProcessors.init image machine) := by
  have current : (Hardware.init machine : Hardware N).inUse 0 = true := by simp [Hardware.init]
  refine ⟨rfl, rfl, current, ?_, ?_, ?_, ?_, fun _ _ => rfl⟩
  · intro field _
    unfold PrivateProcessors.init Hardware.init
    dsimp only
    rw [if_pos rfl]
  · unfold PrivateProcessors.init Hardware.init
    dsimp only
    rw [if_pos rfl]
  · intro slot notInitial field kept
    unfold PrivateProcessors.init Hardware.init
    dsimp only
    rw [if_neg (show ¬ slot = 0 from notInitial)]
    dsimp only
    rw [offset_eq field kept.1]
  · intro slot notInitial used
    exact absurd (of_decide_eq_true used) notInitial

end Runs

section TwoThreads

/-- Two slots, with `gt_table` at 0x1000. -/
def twoSlots : Image 2 where
  gtTable := 0x1000
  gtSwitch := 0x100
  gtStop := 0x200
  fits := by decide

/-- The initial thread with its stack pointer at 0x8000. -/
def initialMachine : WordMachine Register where
  register := fun register => if register = .rsp then 0x8000 else 7
  rip := 0x300
  memory := fun _ => 0

/-- It creates a thread whose stack block `malloc` put at 0x100000, ... -/
def createdThread : Hardware 2 :=
  (Hardware.init initialMachine).create twoSlots 0x400 (some 0x100000)

/-- ... switches to it, ... -/
def switchedThere : Hardware 2 := createdThread.switch twoSlots 0x500 1

/-- ... and the created thread computes, ... -/
def computedThere : Hardware 2 :=
  { switchedThere with
    machine := ⟨fun register => if register = .rsp then 0x4fff00 else 9, 0x410,
      switchedThere.machine.memory.writeBytes [(0x4fff40, 1)]⟩ }

/-- ... and switches back. -/
def switchedBack : Hardware 2 := computedThere.switch twoSlots 0x420 0

theorem createdThread_permitted :
    Permitted twoSlots (Hardware.init initialMachine) (.gtCreate 0x400 (some 0x100000)) := by
  intro block isBlock
  cases isBlock
  exact Hardware.free_of_distances (by decide) (by decide)

theorem switchedThere_permitted : Permitted twoSlots createdThread (.gtSwitch 0x500 1) :=
  ⟨by decide, Hardware.free_of_distances (by decide) (by decide)⟩

theorem computedThere_permitted : Permitted twoSlots switchedThere
    (.compute (fun register => if register = .rsp then 0x4fff00 else 9) 0x410
      [(0x4fff40, 1)]) := by
  intro write member guarded
  rw [List.mem_singleton] at member
  subst member
  have free : switchedThere.Free twoSlots 0x4fff40 8 :=
    Hardware.free_of_distances (by decide) (by decide)
  exact free 0x4fff40 (by decide) guarded

theorem switchedBack_permitted : Permitted twoSlots computedThere (.gtSwitch 0x420 0) :=
  ⟨by decide, Hardware.free_of_distances (by decide) (by decide)⟩

theorem createdThread_reached : (hardware twoSlots).Trace (Permitted twoSlots)
    (Hardware.init initialMachine) [.gtCreate 0x400 (some 0x100000)] createdThread :=
  .cons createdThread_permitted rfl (.nil _)

end TwoThreads

section Runs

variable [NeZero N]

/-- Whatever turns the threads take, the one processor with `gt_switch` behaves as if every
thread had registers, a stack pointer and an instruction pointer of its own, which only the
thread itself changes. -/
theorem context_switch_gives_private_processors (image : Image N)
    {machine : WordMachine Register} {turns : List (Turn N)} {after : Hardware N}
    (ran : (hardware image).Trace (Permitted image) (Hardware.init machine) turns after) :
    ∃ threads, (privateProcessors image).Trace PartialMachine.anyStep
        (PrivateProcessors.init image machine) turns threads ∧
      Virtualizes image after threads :=
  (hardware_lockstep image).trace (virtualizes_init image machine) ran

end Runs

theorem two_threads_keep_private_processors :
    ∃ threads, (privateProcessors twoSlots).Trace PartialMachine.anyStep
        (PrivateProcessors.init twoSlots initialMachine)
        [.gtCreate 0x400 (some 0x100000), .gtSwitch 0x500 1] threads ∧
      Virtualizes twoSlots switchedThere threads :=
  context_switch_gives_private_processors twoSlots
    (.cons createdThread_permitted rfl (.cons switchedThere_permitted rfl (.nil _)))

/-! ### Away from a thread -/

/-- A permitted turn of a thread other than `slot`. -/
def TurnOfOther (image : Image N) (slot : Fin N) (hw : Hardware N) (turn : Turn N) : Prop :=
  Permitted image hw turn ∧ hw.gtCurrent ≠ slot

/-- Turns of other threads leave a thread in use and its processor alone. -/
theorem privateProcessors_frame {image : Image N} {threads next : PrivateProcessors N}
    {turn : Turn N} {slot : Fin N}
    (stepped : (privateProcessors image).step threads turn = some next)
    (notCurrent : threads.gtCurrent ≠ slot) (used : threads.inUse slot = true) :
    next.processor slot = threads.processor slot ∧ next.inUse slot = true := by
  cases turn with
  | compute register rip writes =>
      cases stepped
      exact ⟨Function.update_of_ne notCurrent.symm .., used⟩
  | gtSwitch returnAddress p =>
      cases stepped
      exact ⟨Function.update_of_ne notCurrent.symm .., used⟩
  | gtReturn returnAddress p =>
      cases stepped
      exact ⟨Function.update_of_ne notCurrent.symm ..,
        (Function.update_of_ne notCurrent.symm ..).trans used⟩
  | gtCreate f stack =>
      cases stepped
      unfold PrivateProcessors.create
      split
      · rename_i p block found
        have different : slot ≠ p := by
          rintro rfl
          have unused := List.find?_some found
          rw [used] at unused
          cases unused
        exact ⟨Function.update_of_ne different .., (Function.update_of_ne different ..).trans used⟩
      · exact ⟨rfl, used⟩

/-- A thread that is in use and has the given processor. -/
def Parked (image : Image N) (slot : Fin N) (processor : Processor) (hw : Hardware N) : Prop :=
  ∃ threads, Virtualizes image hw threads ∧ hw.inUse slot = true ∧
    threads.processor slot = processor

theorem Parked.step {image : Image N} {slot : Fin N} {processor : Processor}
    {hw after : Hardware N} {turn : Turn N} (parked : Parked image slot processor hw)
    (other : TurnOfOther image slot hw turn)
    (stepped : (hardware image).step hw turn = some after) :
    Parked image slot processor after := by
  obtain ⟨threads, represented, used, isProcessor⟩ := parked
  obtain ⟨permitted, notCurrent⟩ := other
  obtain ⟨next, matched, kept⟩ := represented.step permitted stepped
  rw [← represented.gtCurrent] at notCurrent
  rw [← represented.inUse] at used
  obtain ⟨sameProcessor, stillUsed⟩ := privateProcessors_frame matched notCurrent used
  rw [kept.inUse] at stillUsed
  exact ⟨next, kept, stillUsed, sameProcessor.trans isProcessor⟩

/-- When its turn comes, it runs with that processor. -/
theorem Parked.running {image : Image N} {slot : Fin N} {processor : Processor}
    {hw : Hardware N} (parked : Parked image slot processor hw) (current : hw.gtCurrent = slot) :
    hw.machine.rip = processor.rip ∧
      ∀ field ∈ gtContext, hw.machine.register field.1 = processor.register field.1 := by
  obtain ⟨threads, represented, -, rfl⟩ := parked
  subst current
  exact ⟨represented.rip, represented.running⟩

variable [NeZero N]

/-- A thread that called `gt_switch` goes on behind the call, with the stack pointer and the
callee-saved registers it had there, whatever the other threads did in between. -/
theorem thread_resumes_where_it_left (image : Image N) {machine : WordMachine Register}
    {earlier later : List (Turn N)} {before after : Hardware N} {returnAddress : Word} {p : Fin N}
    (ran : (hardware image).Trace (Permitted image) (Hardware.init machine) earlier before)
    (permitted : Permitted image before (.gtSwitch returnAddress p))
    (away : (hardware image).Trace (TurnOfOther image before.gtCurrent)
      (before.switch image returnAddress p) later after)
    (back : after.gtCurrent = before.gtCurrent) :
    after.machine.rip = returnAddress ∧
      ∀ field ∈ gtContext, after.machine.register field.1 = before.machine.register field.1 := by
  obtain ⟨threads, -, represented⟩ := context_switch_gives_private_processors image ran
  let left : Processor := { threads.processor before.gtCurrent with rip := returnAddress }
  have parked : Parked image before.gtCurrent left (before.switch image returnAddress p) := by
    refine ⟨threads.switch returnAddress p, ?_, represented.currentInUse, ?_⟩
    · exact represented.switch returnAddress p represented.inUse (fun _ used => used)
        permitted.1 permitted.2
    · unfold PrivateProcessors.switch
      dsimp only
      rw [represented.gtCurrent, Function.update_self]
  have still := away.invariant (fun _ _ _ kept other stepped => kept.step other stepped) parked
  obtain ⟨rip, registers⟩ := still.running back
  refine ⟨rip, fun field member => ?_⟩
  exact (registers field member).trans (represented.running field member).symm

theorem initial_thread_resumes :
    switchedBack.machine.rip = 0x500 ∧ ∀ field ∈ gtContext,
      switchedBack.machine.register field.1 = createdThread.machine.register field.1 :=
  thread_resumes_where_it_left twoSlots createdThread_reached switchedThere_permitted
    (.cons ⟨computedThere_permitted, by decide⟩ rfl
      (.cons ⟨switchedBack_permitted, by decide⟩ rfl (.nil _))) rfl

/-! ### The first frame -/

omit [NeZero N] in
/-- A turn that leaves a word of a stack block alone: code does not write it, and no stack
grows into it. -/
def Spares (word : Word) (hw : Hardware N) : Turn N → Prop
  | .compute _ _ writes => ∀ write ∈ writes, ¬ InBlock word 8 write.1
  | .gtSwitch _ _ | .gtReturn _ _ => Apart (hw.machine.register .rsp - 8) 8 word 8
  | .gtCreate _ stack => ∀ block ∈ stack, Apart (firstStackPointer block) 16 word 8

omit [NeZero N] in
/-- Such a turn keeps the word in the memory of the private processors. -/
theorem Spares.readWord {image : Image N} {hw : Hardware N} {threads next : PrivateProcessors N}
    {turn : Turn N} {word : Word} (spares : Spares word hw turn)
    (represented : Virtualizes image hw threads)
    (stepped : (privateProcessors image).step threads turn = some next) :
    next.memory.readWord word = threads.memory.readWord word := by
  have top : hw.machine.register .rsp = (threads.processor threads.gtCurrent).register .rsp := by
    rw [represented.gtCurrent]
    exact represented.running (.rsp, 0) (by decide)
  cases turn with
  | compute register rip writes =>
      cases stepped
      refine ByteMemory.readWord_congr fun address inside => ?_
      exact ByteMemory.writeBytes_outside _ fun write member isAddress =>
        spares write member (isAddress ▸ inside)
  | gtSwitch returnAddress p =>
      cases stepped
      have apart : Apart (hw.machine.register .rsp - 8) 8 word 8 := spares
      rw [top] at apart
      exact ByteMemory.readWord_writeWord_apart _ apart
  | gtReturn returnAddress p =>
      cases stepped
      have apart : Apart (hw.machine.register .rsp - 8) 8 word 8 := spares
      rw [top] at apart
      exact ByteMemory.readWord_writeWord_apart _ apart
  | gtCreate f stack =>
      cases stepped
      unfold PrivateProcessors.create
      split
      · rename_i p block found
        refine ByteMemory.readWord_congr fun address inside => ?_
        exact firstFrame_outside image f block _ fun inFrame =>
          spares block rfl address inFrame inside
      · rfl

omit [NeZero N] in
/-- A thread that is in use, has the given processor, and finds `gt_stop` in a word. -/
def Entering (image : Image N) (slot : Fin N) (processor : Processor) (word : Word)
    (hw : Hardware N) : Prop :=
  ∃ threads, Virtualizes image hw threads ∧ hw.inUse slot = true ∧
    threads.processor slot = processor ∧ threads.memory.readWord word = image.gtStop

omit [NeZero N] in
theorem Entering.step {image : Image N} {slot : Fin N} {processor : Processor} {word : Word}
    {hw after : Hardware N} {turn : Turn N} (entering : Entering image slot processor word hw)
    (other : TurnOfOther image slot hw turn) (spares : Spares word hw turn)
    (stepped : (hardware image).step hw turn = some after) :
    Entering image slot processor word after := by
  obtain ⟨threads, represented, used, isProcessor, isStop⟩ := entering
  obtain ⟨permitted, notCurrent⟩ := other
  obtain ⟨next, matched, kept⟩ := represented.step permitted stepped
  rw [← represented.gtCurrent] at notCurrent
  rw [← represented.inUse] at used
  obtain ⟨sameProcessor, stillUsed⟩ := privateProcessors_frame matched notCurrent used
  rw [kept.inUse] at stillUsed
  exact ⟨next, kept, stillUsed, sameProcessor.trans isProcessor,
    (spares.readWord represented matched).trans isStop⟩

omit [NeZero N] in
/-- Behind `gt_create`. -/
theorem Virtualizes.entering {image : Image N} {hw : Hardware N} {threads : PrivateProcessors N}
    (represented : Virtualizes image hw threads) {f stack : Word} {p : Fin N}
    (unused : firstUnused hw.inUse = some p)
    (permitted : Permitted image hw (.gtCreate f (some stack))) :
    ∃ register : Register → Word, register .rsp = firstStackPointer stack + 8 ∧
      Entering image p ⟨register, f⟩ (firstStackPointer stack + 8)
        (hw.create image f (some stack)) := by
  have created := represented.create (f := f) permitted
  have isCreated : threads.create image f (some stack) =
      { threads with
        processor := Function.update threads.processor p
          { register := Function.update (threads.processor p).register .rsp
              (firstStackPointer stack + 8)
            rip := f }
        memory := image.firstFrame f stack threads.memory
        inUse := Function.update threads.inUse p true } := by
    unfold PrivateProcessors.create
    rw [represented.inUse, unused]
  let register := Function.update (threads.processor p).register .rsp (firstStackPointer stack + 8)
  refine ⟨register, Function.update_self .., _, created, ?_, ?_, ?_⟩
  · rw [← created.inUse, isCreated]
    exact Function.update_self ..
  · rw [isCreated]
    exact Function.update_self ..
  · rw [isCreated]
    exact firstFrame_exit ..

omit [NeZero N] in
theorem aligned_add {stack : Word} (aligned : stack.toNat % 16 = 0) (offset : Word) :
    (stack + offset).toNat % 16 = offset.toNat % 16 := by
  rw [BitVec.toNat_add]
  omega

/-- A created thread starts at the first instruction of its function, on the end of its
stack block, with the address of `gt_stop` as its return address: a `ret` from there goes to
`gt_stop` with the stack pointer behind the block.  In a block aligned as `malloc` does, the
function has the stack alignment of a called function, and `gt_stop` has not. -/
theorem created_thread_starts_in_its_function (image : Image N) {machine : WordMachine Register}
    {earlier later : List (Turn N)} {before after : Hardware N} {f stack : Word} {p : Fin N}
    (ran : (hardware image).Trace (Permitted image) (Hardware.init machine) earlier before)
    (unused : firstUnused before.inUse = some p)
    (permitted : Permitted image before (.gtCreate f (some stack)))
    (away : (hardware image).Trace
      (fun hw turn => TurnOfOther image p hw turn ∧ Spares (firstStackPointer stack + 8) hw turn)
      (before.create image f (some stack)) later after)
    (turnComes : after.gtCurrent = p) :
    let returned := after.machine.execute .rsp .ret
    after.machine.rip = f ∧
      after.machine.register .rsp = stack + BitVec.ofNat 64 (stackSize - 8) ∧
      returned.rip = image.gtStop ∧
      returned.register .rsp = stack + BitVec.ofNat 64 stackSize ∧
      (stack.toNat % 16 = 0 → (after.machine.register .rsp + 8).toNat % 16 = 0 ∧
        (returned.register .rsp + 8).toNat % 16 = 8) := by
  obtain ⟨threads, -, represented⟩ := context_switch_gives_private_processors image ran
  obtain ⟨register, atTop, entering⟩ := represented.entering unused permitted
  have still := away.invariant
    (fun _ _ _ kept other stepped => Entering.step kept other.1 other.2 stepped) entering
  obtain ⟨lastThreads, inStep, used, isProcessor, isStop⟩ := still
  obtain ⟨rip, registers⟩ := Parked.running ⟨lastThreads, inStep, used, isProcessor⟩ turnComes
  have top : after.machine.register .rsp = firstStackPointer stack + 8 :=
    (registers (.rsp, 0) (by decide)).trans atTop
  -- The word lies in the block that `malloc` returned, hence in no context.
  have exitWord : after.machine.memory.readWord (firstStackPointer stack + 8) = image.gtStop := by
    rw [← isStop]
    refine ByteMemory.readWord_congr fun address inside => inStep.memory address ?_
    intro slot inContext
    exact permitted stack rfl address
      (inside.of_part (show 8 + 8 ≤ 16 by decide) (by decide)) (.inl ⟨slot, inContext⟩)
  have isReturned : (after.machine.execute .rsp .ret).register .rsp =
      stack + BitVec.ofNat 64 stackSize := by
    rw [execute_ret_stackPointer, top, firstStackPointer_add, BitVec.add_assoc]
    rfl
  refine ⟨rip, top.trans (firstStackPointer_add stack), ?_, isReturned, fun aligned => ⟨?_, ?_⟩⟩
  · change after.machine.memory.readWord (after.machine.register .rsp) = image.gtStop
    rw [top, exitWord]
  · rw [top, firstStackPointer_add, BitVec.add_assoc, aligned_add aligned]
    decide
  · rw [isReturned, BitVec.add_assoc, aligned_add aligned]
    decide

theorem second_thread_starts :
    let returned := switchedThere.machine.execute .rsp .ret
    switchedThere.machine.rip = 0x400 ∧
      switchedThere.machine.register .rsp = 0x100000 + BitVec.ofNat 64 (stackSize - 8) ∧
      returned.rip = twoSlots.gtStop ∧
      returned.register .rsp = 0x100000 + BitVec.ofNat 64 stackSize ∧
      (switchedThere.machine.register .rsp + 8).toNat % 16 = 0 ∧
      (returned.register .rsp + 8).toNat % 16 = 8 := by
  obtain ⟨rip, top, isStop, behind, alignment⟩ :=
    created_thread_starts_in_its_function twoSlots (p := 1) (.nil _) (by decide)
      createdThread_permitted
      (.cons ⟨⟨switchedThere_permitted, by decide⟩, apart_of_distances (by decide) (by decide)⟩
        rfl (.nil _)) rfl
  exact ⟨rip, top, isStop, behind, alignment (by decide)⟩

end Ivos.Scheduler
