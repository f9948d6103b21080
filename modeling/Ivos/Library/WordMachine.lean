/-
Module: Ivos.Library.WordMachine
Purpose: A byte-addressed memory of 64-bit words, the few instructions that move
  words between it and the registers, and the rules for blocks of such moves.
Trusted boundary: none
Main exports: Word, ByteMemory, InBlock, Apart, ByteMemory.readWord_writeWord,
  WordMachine, Instruction, FrameLayout, executeAll_saves, executeAll_loads
-/
import Mathlib.Algebra.Group.Nat.Defs
import Mathlib.Data.Nat.Basic
import Mathlib.Order.Basic
import Mathlib.Logic.Function.Basic

namespace Ivos

universe registerLevel

/-! ### Memory

Addresses are 64-bit words and wrap round, every address has a byte, and words are stored
little-endian at any alignment.  Blocks are given by their first address and their size.
-/

/-- A 64-bit word, also the addresses. -/
abbrev Word := BitVec 64

/-- The contents of a flat address space. -/
abbrev ByteMemory := Word → BitVec 8

/-- The address is one of the `size` bytes from `start` on. -/
def InBlock (start : Word) (size : Nat) (address : Word) : Prop :=
  (address - start).toNat < size

instance (start : Word) (size : Nat) (address : Word) : Decidable (InBlock start size address) :=
  inferInstanceAs (Decidable (_ < _))

attribute [irreducible] InBlock

/-- Two blocks without a common byte. -/
def Apart (start : Word) (size : Nat) (other : Word) (otherSize : Nat) : Prop :=
  ∀ address, InBlock start size address → ¬ InBlock other otherSize address

/-- The word with the given bytes, least significant first. -/
def wordOfBytes (byte : Nat → BitVec 8) : Word :=
  byte 7 ++ byte 6 ++ byte 5 ++ byte 4 ++ byte 3 ++ byte 2 ++ byte 1 ++ byte 0

/-- The word at an address, least significant byte first. -/
def ByteMemory.readWord (memory : ByteMemory) (address : Word) : Word :=
  wordOfBytes fun offset => memory (address + BitVec.ofNat 64 offset)

/-- Store a word, least significant byte first. -/
def ByteMemory.writeWord (memory : ByteMemory) (address word : Word) : ByteMemory :=
  fun other =>
    if InBlock address 8 other then word.extractLsb' (8 * (other - address).toNat) 8
    else memory other

theorem wordOfBytes_congr {first second : Nat → BitVec 8}
    (same : ∀ offset < 8, first offset = second offset) :
    wordOfBytes first = wordOfBytes second := by
  unfold wordOfBytes
  rw [same 7 (by decide), same 6 (by decide), same 5 (by decide), same 4 (by decide),
    same 3 (by decide), same 2 (by decide), same 1 (by decide), same 0 (by decide)]

/-- The bytes of a word make up the word. -/
theorem wordOfBytes_extractLsb' (word : Word) :
    wordOfBytes (fun offset => word.extractLsb' (8 * offset) 8) = word := by
  unfold wordOfBytes
  ext position inside
  refine Eq.trans ?_ (BitVec.getLsbD_eq_getElem inside)
  simp only [BitVec.getElem_append, BitVec.getElem_extractLsb']
  -- One case for each of the eight bytes.
  repeat' split
  all_goals exact congrArg word.getLsbD (by omega)

/-- Store bytes one after the other. -/
def ByteMemory.writeBytes (memory : ByteMemory) (writes : List (Word × BitVec 8)) : ByteMemory :=
  writes.foldl (fun current write => Function.update current write.1 write.2) memory

theorem Apart.symm {start other : Word} {size otherSize : Nat}
    (apart : Apart start size other otherSize) : Apart other otherSize start size :=
  fun address inOther inStart => apart address inStart inOther

/-- The byte `offset` behind the start of a block. -/
theorem add_ofNat_sub_toNat (start : Word) (offset : Nat) (small : offset < 2 ^ 64) :
    (start + BitVec.ofNat 64 offset - start).toNat = offset := by
  rw [BitVec.toNat_sub, BitVec.toNat_add, BitVec.toNat_ofNat]
  have bound := start.isLt
  omega

/-- A part of a block. -/
theorem InBlock.of_part {start address : Word} {offset size whole : Nat}
    (fits : offset + size ≤ whole) (small : whole ≤ 2 ^ 64)
    (inside : InBlock (start + BitVec.ofNat 64 offset) size address) :
    InBlock start whole address := by
  unfold InBlock at inside ⊢
  have split : (address - start).toNat =
      ((address - (start + BitVec.ofNat 64 offset)).toNat + offset) % 2 ^ 64 := by
    rw [BitVec.toNat_sub, BitVec.toNat_sub, BitVec.toNat_add, BitVec.toNat_ofNat]
    have startBound := start.isLt
    have addressBound := address.isLt
    omega
  rw [split]
  omega

/-- Two parts of a block that do not overlap. -/
theorem apart_of_offsets (start : Word) {first second size otherSize : Nat}
    (before : first + size ≤ second) (fits : second + otherSize ≤ 2 ^ 64) :
    Apart (start + BitVec.ofNat 64 first) size (start + BitVec.ofNat 64 second) otherSize := by
  intro address inFirst inSecond
  unfold InBlock at inFirst inSecond
  rw [BitVec.toNat_sub, BitVec.toNat_add, BitVec.toNat_ofNat] at inFirst inSecond
  have startBound := start.isLt
  have addressBound := address.isLt
  omega

/-- Two blocks that each begin behind the end of the other. -/
theorem apart_of_distances {start other : Word} {size otherSize : Nat}
    (behind : size ≤ (other - start).toNat) (before : otherSize ≤ (start - other).toNat) :
    Apart start size other otherSize := by
  intro address inFirst inSecond
  unfold InBlock at inFirst inSecond
  rw [BitVec.toNat_sub] at inFirst inSecond behind before
  have startBound := start.isLt
  have otherBound := other.isLt
  have addressBound := address.isLt
  omega

namespace ByteMemory

variable (memory : ByteMemory)

theorem writeWord_inside {address other : Word} (word : Word) (inside : InBlock address 8 other) :
    memory.writeWord address word other = word.extractLsb' (8 * (other - address).toNat) 8 :=
  if_pos inside

theorem writeWord_outside {address other : Word} (word : Word)
    (outside : ¬ InBlock address 8 other) : memory.writeWord address word other = memory other :=
  if_neg outside

/-- The eight bytes of a stored word. -/
theorem writeWord_offset (address word : Word) (offset : Nat) (small : offset < 8) :
    memory.writeWord address word (address + BitVec.ofNat 64 offset) =
      word.extractLsb' (8 * offset) 8 := by
  have distance := add_ofNat_sub_toNat address offset (by omega)
  rw [writeWord_inside memory word (by unfold InBlock; omega), distance]

/-- What was stored is what is loaded. -/
@[simp] theorem readWord_writeWord (address word : Word) :
    (memory.writeWord address word).readWord address = word := by
  exact (wordOfBytes_congr (memory.writeWord_offset address word)).trans
    (wordOfBytes_extractLsb' word)

variable {memory}

/-- A load reads its eight bytes and nothing else. -/
theorem readWord_congr {other : ByteMemory} {address : Word}
    (same : ∀ byte, InBlock address 8 byte → memory byte = other byte) :
    memory.readWord address = other.readWord address := by
  refine wordOfBytes_congr fun offset small => same _ ?_
  unfold InBlock
  rw [add_ofNat_sub_toNat address offset (by omega)]
  exact small

/-- A store leaves the words apart from it alone. -/
theorem readWord_writeWord_apart {address other : Word} (word : Word)
    (apart : Apart address 8 other 8) :
    (memory.writeWord address word).readWord other = memory.readWord other :=
  readWord_congr fun byte inside =>
    writeWord_outside memory word fun inWritten => apart byte inWritten inside

/-- A stored word makes two memories no more different. -/
theorem writeWord_agree {other : ByteMemory} {byte : Word} (same : memory byte = other byte)
    (address word : Word) :
    memory.writeWord address word byte = other.writeWord address word byte := by
  unfold writeWord
  rw [same]

theorem writeBytes_agree {other : ByteMemory} {byte : Word} (same : memory byte = other byte)
    (writes : List (Word × BitVec 8)) :
    memory.writeBytes writes byte = other.writeBytes writes byte := by
  induction writes generalizing memory other with
  | nil => exact same
  | cons write rest inductionHypothesis =>
      apply inductionHypothesis
      dsimp only
      by_cases isWritten : byte = write.1
      · rw [isWritten, Function.update_self, Function.update_self]
      · rw [Function.update_of_ne isWritten, Function.update_of_ne isWritten, same]

theorem writeBytes_outside (memory : ByteMemory) {writes : List (Word × BitVec 8)} {byte : Word}
    (outside : ∀ write ∈ writes, write.1 ≠ byte) : memory.writeBytes writes byte = memory byte := by
  induction writes generalizing memory with
  | nil => rfl
  | cons write rest inductionHypothesis =>
      have later := inductionHypothesis (Function.update memory write.1 write.2)
        fun other inRest => outside other (.tail _ inRest)
      exact later.trans (Function.update_of_ne (outside write (.head _)).symm ..)

end ByteMemory

/-! ### Instructions -/

/-- The registers, where control goes next, and the memory. -/
structure WordMachine (Register : Type registerLevel) where
  register : Register → Word
  rip : Word
  memory : ByteMemory

/-- Moves of a register to memory and back at a displacement from a base register, and
the return from a call.  Straight-line code leaves `rip` to the return at its end. -/
inductive Instruction (Register : Type registerLevel) where
  | store (source : Register) (displacement : Nat) (base : Register)
  | load (displacement : Nat) (base : Register) (target : Register)
  | ret

namespace WordMachine

variable {Register : Type registerLevel} [DecidableEq Register]

/-- One instruction on a machine whose stack pointer is `stackPointer`. -/
def execute (stackPointer : Register) (machine : WordMachine Register) :
    Instruction Register → WordMachine Register
  | .store source displacement base =>
      { machine with
        memory := machine.memory.writeWord
          (machine.register base + BitVec.ofNat 64 displacement) (machine.register source) }
  | .load displacement base target =>
      { machine with
        register := Function.update machine.register target
          (machine.memory.readWord (machine.register base + BitVec.ofNat 64 displacement)) }
  | .ret =>
      { machine with
        rip := machine.memory.readWord (machine.register stackPointer)
        register := Function.update machine.register stackPointer
          (machine.register stackPointer + 8) }

/-- The instructions one after the other. -/
def executeAll (stackPointer : Register) (code : List (Instruction Register))
    (machine : WordMachine Register) : WordMachine Register :=
  code.foldl (execute stackPointer) machine

/-- A call: push the return address and go to the callee. -/
def call (stackPointer : Register) (returnAddress callee : Word)
    (machine : WordMachine Register) : WordMachine Register :=
  { register := Function.update machine.register stackPointer (machine.register stackPointer - 8)
    rip := callee
    memory := machine.memory.writeWord (machine.register stackPointer - 8) returnAddress }

/-- A return pops its address. -/
@[simp] theorem execute_ret_stackPointer (stackPointer : Register)
    (machine : WordMachine Register) :
    (machine.execute stackPointer .ret).register stackPointer =
      machine.register stackPointer + 8 :=
  Function.update_self ..

theorem execute_ret_other {stackPointer register : Register} (other : register ≠ stackPointer)
    (machine : WordMachine Register) :
    (machine.execute stackPointer .ret).register register = machine.register register :=
  Function.update_of_ne other ..

theorem executeAll_append (stackPointer : Register) (first second : List (Instruction Register))
    (machine : WordMachine Register) :
    executeAll stackPointer (first ++ second) machine =
      executeAll stackPointer second (executeAll stackPointer first machine) :=
  List.foldl_append

/-! ### Frames -/

/-- Save registers at displacements from a base register. -/
def saves (base : Register) (frame : List (Register × Nat)) : List (Instruction Register) :=
  frame.map fun (register, displacement) => .store register displacement base

/-- Load registers from displacements from a base register. -/
def loads (base : Register) (frame : List (Register × Nat)) : List (Instruction Register) :=
  frame.map fun (register, displacement) => .load displacement base register

/-- The slots of a frame are words of a block of `size` bytes, in ascending order, each
for another register. -/
structure FrameLayout (frame : List (Register × Nat)) (size : Nat) : Prop where
  ascending : frame.Pairwise fun earlier later => earlier.2 + 8 ≤ later.2
  fits : ∀ slot ∈ frame, slot.2 + 8 ≤ size
  registers : (frame.map Prod.fst).Nodup
  small : size ≤ 2 ^ 64

/-- A block of saves leaves the registers as they are. -/
@[simp] theorem executeAll_saves_register (stackPointer base : Register)
    (frame : List (Register × Nat)) (machine : WordMachine Register) :
    (executeAll stackPointer (saves base frame) machine).register = machine.register := by
  induction frame generalizing machine with
  | nil => rfl
  | cons slot rest inductionHypothesis => exact inductionHypothesis _

@[simp] theorem executeAll_saves_rip (stackPointer base : Register)
    (frame : List (Register × Nat)) (machine : WordMachine Register) :
    (executeAll stackPointer (saves base frame) machine).rip = machine.rip := by
  induction frame generalizing machine with
  | nil => rfl
  | cons slot rest inductionHypothesis => exact inductionHypothesis _

/-- It writes inside the block and nowhere else. -/
theorem executeAll_saves_outside (stackPointer base : Register) {size : Nat}
    {frame : List (Register × Nat)} (fits : ∀ slot ∈ frame, slot.2 + 8 ≤ size)
    (small : size ≤ 2 ^ 64) (machine : WordMachine Register) {address : Word}
    (outside : ¬ InBlock (machine.register base) size address) :
    (executeAll stackPointer (saves base frame) machine).memory address =
      machine.memory address := by
  induction frame generalizing machine with
  | nil => rfl
  | cons slot rest inductionHypothesis =>
      have later := inductionHypothesis (fun other member => fits other (.tail _ member))
        (machine.execute stackPointer (.store slot.1 slot.2 base)) outside
      refine later.trans (ByteMemory.writeWord_outside _ _ fun inside => outside ?_)
      exact inside.of_part (fits slot (.head _)) small

/-- Words apart from every slot keep their contents. -/
theorem executeAll_saves_apart (stackPointer base : Register) {frame : List (Register × Nat)}
    {address : Word} (machine : WordMachine Register)
    (apart : ∀ slot ∈ frame,
      Apart (machine.register base + BitVec.ofNat 64 slot.2) 8 address 8) :
    (executeAll stackPointer (saves base frame) machine).memory.readWord address =
      machine.memory.readWord address := by
  induction frame generalizing machine with
  | nil => rfl
  | cons slot rest inductionHypothesis =>
      have later := inductionHypothesis
        (machine.execute stackPointer (.store slot.1 slot.2 base))
        fun other inRest => apart other (.tail _ inRest)
      exact later.trans (ByteMemory.readWord_writeWord_apart _ (apart slot (.head _)))

/-- Each slot of the frame then holds its register. -/
theorem executeAll_saves (stackPointer base : Register) {size : Nat}
    {frame : List (Register × Nat)} (layout : FrameLayout frame size)
    (machine : WordMachine Register) {slot : Register × Nat} (member : slot ∈ frame) :
    (executeAll stackPointer (saves base frame) machine).memory.readWord
        (machine.register base + BitVec.ofNat 64 slot.2) = machine.register slot.1 := by
  induction frame generalizing machine with
  | nil => cases member
  | cons first rest inductionHypothesis =>
      obtain ⟨before, ascending⟩ := List.pairwise_cons.mp layout.ascending
      have layoutRest : FrameLayout rest size :=
        ⟨ascending, fun other inRest => layout.fits other (.tail _ inRest),
          (List.nodup_cons.mp layout.registers).2, layout.small⟩
      rcases List.mem_cons.mp member with rfl | inRest
      · -- The later saves lie behind this one.
        have untouched := executeAll_saves_apart stackPointer base
          (machine.execute stackPointer (.store slot.1 slot.2 base))
          fun other inRest => (apart_of_offsets (machine.register base) (before other inRest)
            ((layoutRest.fits other inRest).trans layout.small)).symm
        exact untouched.trans (ByteMemory.readWord_writeWord ..)
      · exact inductionHypothesis layoutRest
          (machine.execute stackPointer (.store first.1 first.2 base)) inRest

/-- A block of loads writes no memory. -/
@[simp] theorem executeAll_loads_memory (stackPointer base : Register)
    (frame : List (Register × Nat)) (machine : WordMachine Register) :
    (executeAll stackPointer (loads base frame) machine).memory = machine.memory := by
  induction frame generalizing machine with
  | nil => rfl
  | cons slot rest inductionHypothesis => exact inductionHypothesis _

@[simp] theorem executeAll_loads_rip (stackPointer base : Register)
    (frame : List (Register × Nat)) (machine : WordMachine Register) :
    (executeAll stackPointer (loads base frame) machine).rip = machine.rip := by
  induction frame generalizing machine with
  | nil => rfl
  | cons slot rest inductionHypothesis => exact inductionHypothesis _

/-- Registers outside the frame keep their values. -/
theorem executeAll_loads_other (stackPointer base : Register) {frame : List (Register × Nat)}
    {register : Register} (other : register ∉ frame.map Prod.fst)
    (machine : WordMachine Register) :
    (executeAll stackPointer (loads base frame) machine).register register =
      machine.register register := by
  induction frame generalizing machine with
  | nil => rfl
  | cons slot rest inductionHypothesis =>
      rw [List.map_cons, List.mem_cons, not_or] at other
      have later := inductionHypothesis other.2
        (machine.execute stackPointer (.load slot.2 base slot.1))
      exact later.trans (Function.update_of_ne other.1 ..)

/-- Each register of the frame then holds its slot, when the base is not among them. -/
theorem executeAll_loads (stackPointer base : Register) {frame : List (Register × Nat)}
    (registers : (frame.map Prod.fst).Nodup) (noBase : base ∉ frame.map Prod.fst)
    (machine : WordMachine Register) {slot : Register × Nat} (member : slot ∈ frame) :
    (executeAll stackPointer (loads base frame) machine).register slot.1 =
      machine.memory.readWord (machine.register base + BitVec.ofNat 64 slot.2) := by
  induction frame generalizing machine with
  | nil => cases member
  | cons first rest inductionHypothesis =>
      obtain ⟨fresh, registersRest⟩ := List.nodup_cons.mp registers
      rw [List.map_cons, List.mem_cons, not_or] at noBase
      rcases List.mem_cons.mp member with rfl | inRest
      · have later := executeAll_loads_other stackPointer base fresh
          (machine.execute stackPointer (.load slot.2 base slot.1))
        exact later.trans (Function.update_self ..)
      · have later := inductionHypothesis registersRest noBase.2
          (machine.execute stackPointer (.load first.2 base first.1)) inRest
        refine later.trans ?_
        have sameBase : (machine.execute stackPointer
            (.load first.2 base first.1)).register base = machine.register base :=
          Function.update_of_ne noBase.1 ..
        rw [sameBase]
        rfl

end WordMachine

end Ivos
