/-
Module: Ivos.Fat.Shell
Purpose: The prompt of `run`: which command a typed line is, `print_info`, and what each
  command prints and changes.
Trusted boundary: standard input does not end
Main exports: Command, dispatch, Printed, runCommand, Response, Call, shell,
  parseLine, dispatch_getline
-/
import Ivos.Fat.CorruptChains
import Ivos.Fat.Listing
import Ivos.Library.DataRefinement

namespace Ivos.Fat

/-! ### From a line to a command

`getline` allocates the line, so that heap bytes the program never wrote lie behind it.
`read` and `cd` take their argument from a fixed distance into the line, past the NUL if
the line is short; those bytes are part of a call.  The lines of a session end with a
newline, and standard input does not end.
-/

/-- The bytes of a string of the source. -/
def characters (text : String) : List UInt8 :=
  text.toList.map fun character => UInt8.ofNat character.toNat

inductive Command where
  | exit
  | info
  | ls
  | read (filename : List UInt8)
  | cd (directory : List UInt8)
  | tree
  | help
  /-- None of the comparisons holds. -/
  | unknown
deriving Repr, DecidableEq

/-- The memory at `cmd` when `getline` has read a line that ends with a newline. -/
def getline (typed behind : List UInt8) : List UInt8 := typed ++ 0x0A :: 0 :: behind

/-- `cmd[strcspn(cmd, "\n")] = 0`. -/
def removeNewline (memory : List UInt8) : List UInt8 :=
  memory.set (memory.takeWhile fun byte => byte ≠ 0x0A ∧ byte ≠ 0).length 0

/-- The comparisons of `run`, in their order, on the memory at `cmd`. -/
def dispatch (memory : List UInt8) : Command :=
  let cmd := removeNewline memory
  let text := beforeNul cmd
  if text = characters "exit" then .exit
  else if text = characters "info" then .info
  else if text = characters "ls" then .ls
  else if strncmpEq 4 cmd (characters "read") then .read (beforeNul (cmd.drop 5))
  else if strncmpEq 2 cmd (characters "cd") then .cd (beforeNul (cmd.drop 3))
  else if text = characters "tree" then .tree
  else if text = characters "help" then .help
  else .unknown

/-- The command that a line is by its own characters. -/
def parseLine (typed : List UInt8) : Command :=
  if typed = characters "exit" then .exit
  else if typed = characters "info" then .info
  else if typed = characters "ls" then .ls
  else if characters "read" <+: typed then .read (typed.drop 5)
  else if characters "cd" <+: typed then .cd (typed.drop 3)
  else if typed = characters "tree" then .tree
  else if typed = characters "help" then .help
  else .unknown

/-! ### print_info -/

/-- The fields of a partition table entry that `print_info` prints, the counts as the
`int`s that `%8d` shows. -/
structure PartitionTable where
  partitionType : UInt8
  startSector : Int
  lengthSectors : Int
deriving Repr, DecidableEq

/-- `sizeof(PartitionTable)`. -/
def partitionSize : Nat := 16

def PartitionTable.decode (bytes : Bytes) : PartitionTable where
  partitionType := bytes 4
  startSector := int32 (uint bytes 8).toNat
  lengthSectors := int32 (uint bytes 12).toNat

namespace Volume

variable (volume : Volume)

/-- The bytes of `pt`, and where reading them leaves the stream. -/
def tableBytes : Bytes × Nat :=
  fread volume.image (4 * partitionSize) (fseek 0x1BE 0) volume.uninitialised

/-- `pt`. -/
def partitionTable : List PartitionTable :=
  (List.range 4).map fun index =>
    .decode fun offset => volume.tableBytes.1 (partitionSize * index + offset)

/-- `bs.volume_label`, as `%.11s` shows it. -/
def volumeLabel : List UInt8 :=
  let position := fseek ((512 * volume.startSector.toNat : Nat) % 2 ^ 32) volume.tableBytes.2
  let bytes := (fread volume.image bootSectorSize position volume.uninitialised).1
  beforeNul ((List.range 11).map fun index => bytes (43 + index))

end Volume

/-! ### What the commands print -/

inductive Printed where
  | nothing
  /-- Fixed lines. -/
  | text (lines : List String)
  | information (partitions : List PartitionTable) (label : List UInt8) (sectorSize : UInt16)
      (root : List EntryLine)
  | listing (lines : List EntryLine)
  | file (outcome : ReadOutcome)
  | tree (lines : List Line)

/-- The lines of `help`. -/
def helpLines : List String :=
  ["Available commands:", "\thelp - show this help",
    "\tinfo - show partition table and root directory", "\tls - list files in current directory",
    "\tread <filename_on_FAT> - read file from root directory",
    "\tcd <directory> - change directory", "\ttree - show directory tree",
    "\tdelete <filename_on_FAT> - delete file (not implemented)", "\texit - exit the program"]

section Commands

variable (volume : Volume) (frame : Frame) (fuel : Nat)

/-- `print_info`, with the position it leaves.  Its loop prints an entry as `print_entry`
does. -/
def printInfo (position : Nat) : Option (Printed × Nat) :=
  match forEntries volume listTurn volume.bs.rootDirEntries.toNat 0 volume.uninitialised
      (fseek volume.rootDirectoryOffset position) [] with
  | some (.next lines position, _) =>
      some (.information volume.partitionTable volume.volumeLabel volume.bs.sectorSize lines,
        position)
  | _ => none

/-- The branches of `run` that go on with the loop. -/
def runCommand (navigator : Navigator) : Command → Option (Printed × Navigator)
  | .exit => none
  | .info =>
      (printInfo volume navigator.position).map fun (printed, position) =>
        (printed, { navigator with position := position })
  | .ls =>
      (listFiles volume fuel navigator).map fun (lines, position) =>
        (.listing lines, { navigator with position := position })
  | .read filename =>
      if filename = [] then some (.text ["Filename is empty"], navigator)
      else
        (read volume frame fuel (some filename) navigator).map fun (outcome, position) =>
          (.file outcome, { navigator with position := position })
  | .cd directory =>
      if directory = [] then some (.text ["Directory name is empty"], navigator)
      else
        (changeDirectory volume fuel (some directory) navigator).map fun changed =>
          (if directory.length > 8 then .text ["Directory name is too long"] else .nothing,
            changed)
  | .tree =>
      (printTree volume fuel none (-1) navigator.position).map fun (lines, position) =>
        (.tree lines, { navigator with position := position })
  | .help => some (.text helpLines, navigator)
  | .unknown => some (.nothing, navigator)

end Commands

/-! ### Sessions

A session is a run of the loop in `run`, a turn for each typed line.  What changes from
turn to turn is the navigator; the image and the volume stay, since no command writes.
-/

/-- One turn of the loop as the terminal shows it. -/
structure Response where
  prompt : List UInt8
  printed : Printed

/-- A line that is typed, what the heap holds behind it and the stack behind the locals
of `read`, and a bound on the loops. -/
structure Call where
  typed : List UInt8
  behind : List UInt8
  frame : Frame
  fuel : Nat

/-- `run`, turn by turn.  `none` as a state is a program that has returned. -/
def shell (volume : Volume) : Component Call Response (Option Navigator) where
  call call
    | none => none
    | some navigator =>
        let prompt := navigator.currentDirectory
        match dispatch (getline call.typed call.behind) with
        | .exit => some (⟨prompt, .nothing⟩, none)
        | command =>
            (runCommand volume call.frame call.fuel navigator command).map
              fun (printed, next) => (⟨prompt, printed⟩, some next)

/-! ### Lines that end with a newline -/

section Lines

variable {typed behind : List UInt8}

/-- The newline becomes a second NUL. -/
theorem removeNewline_getline (noNewline : 0x0A ∉ typed) (noNul : 0 ∉ typed) :
    removeNewline (getline typed behind) = typed ++ 0 :: 0 :: behind := by
  have all : ∀ byte ∈ typed, decide (byte ≠ 0x0A ∧ byte ≠ 0) = true := by
    intro byte member
    apply decide_eq_true
    constructor
    · rintro rfl
      exact noNewline member
    · rintro rfl
      exact noNul member
  have spanned : (getline typed behind).takeWhile (fun byte => byte ≠ 0x0A ∧ byte ≠ 0) = typed := by
    rw [getline, List.takeWhile_append_of_pos all]
    exact List.append_nil typed
  rw [removeNewline, spanned, getline, List.set_append_right _ _ (Nat.le_refl _), Nat.sub_self,
    List.set_cons_zero]

theorem beforeNul_line (noNul : 0 ∉ typed) (rest : List UInt8) :
    beforeNul (typed ++ 0 :: rest) = typed := by
  rw [beforeNul_append noNul]
  exact List.append_nil typed

/-- Behind the two NULs nothing is looked for. -/
theorem beforeNul_drop (noNul : 0 ∉ typed) {count : Nat} (near : count ≤ typed.length + 1) :
    beforeNul ((typed ++ 0 :: 0 :: behind).drop count) = typed.drop count := by
  rcases Nat.lt_or_ge typed.length count with behindLine | inLine
  · obtain rfl : count = typed.length + 1 := by omega
    rw [List.drop_append, List.drop_of_length_le (Nat.le_succ _), Nat.add_sub_cancel_left]
    rfl
  · rw [List.drop_append_of_le_length inLine]
    exact beforeNul_line (fun member => noNul (List.mem_of_mem_drop member)) _

/-- `strncmp` with the length of a word tells that the line begins with it. -/
theorem strncmpEq_word {word : List UInt8} {count : Nat} (length : word.length = count)
    (noNul : 0 ∉ word) (rest : List UInt8) :
    strncmpEq count (typed ++ 0 :: rest) word = true ↔ word <+: typed := by
  subst length
  induction word generalizing typed with
  | nil => simp [strncmpEq]
  | cons letter word inductionHypothesis =>
      obtain ⟨letterNotNul, wordNoNul⟩ := not_or.mp (mt List.mem_cons.mpr noNul)
      cases typed with
      | nil => simp [strncmpEq, letterNotNul]
      | cons first typed =>
          have others : strncmpEq word.length (typed ++ 0 :: rest) word = true ↔ word <+: typed :=
            inductionHypothesis wordNoNul
          simp only [List.cons_append, List.length_cons, strncmpEq, decide_eq_true_eq, others,
            List.cons_prefix_cons]
          constructor
          · rintro ⟨rfl, isNul | begins⟩
            · exact absurd isNul.symm letterNotNul
            · exact ⟨rfl, begins⟩
          · rintro ⟨rfl, begins⟩
            exact ⟨rfl, .inr begins⟩

/-- Which command a line is does not depend on what the heap holds behind it: also `read`
and `cd` alone find a NUL where they look for their argument. -/
theorem dispatch_getline (noNewline : 0x0A ∉ typed) (noNul : 0 ∉ typed) (behind : List UInt8) :
    dispatch (getline typed behind) = parseLine typed := by
  have text := beforeNul_line noNul (0 :: behind)
  have isRead : strncmpEq 4 (typed ++ 0 :: 0 :: behind) (characters "read") = true ↔
      characters "read" <+: typed := by
    apply strncmpEq_word
    · decide
    · decide
  have isCd : strncmpEq 2 (typed ++ 0 :: 0 :: behind) (characters "cd") = true ↔
      characters "cd" <+: typed := by
    apply strncmpEq_word
    · decide
    · decide
  unfold dispatch parseLine
  simp only [removeNewline_getline noNewline noNul, text, isRead, isCd]
  split
  · rfl
  · split
    · rfl
    · split
      · rfl
      · split
        · rename_i begins
          have long : 4 ≤ typed.length := begins.length_le
          rw [beforeNul_drop noNul (Nat.succ_le_succ long)]
        · split
          · rename_i begins
            have long : 2 ≤ typed.length := begins.length_le
            rw [beforeNul_drop noNul (Nat.succ_le_succ long)]
          · rfl

end Lines

end Ivos.Fat
