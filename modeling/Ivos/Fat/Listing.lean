/-
Module: Ivos.Fat.Listing
Purpose: `list_files` and the line it prints for an entry.
Trusted boundary: none
Main exports: getAttributes, EntryLine, printEntry, listFiles, usedLines,
  listFiles_root, listFiles_chain, Lists, lists_root, lists_chain
-/
import Ivos.Fat.Navigation

namespace Ivos.Fat

/-! ### print_entry

A printed entry is kept as the values that its `printf` receives.  The columns are a matter
of the format string alone.
-/

/-- `get_attributes`. -/
def getAttributes (attributes : UInt8) : String :=
  if attributes &&& 0x01 ≠ 0 then "<RDO>"
  else if attributes &&& 0x02 ≠ 0 then "<HID>"
  else if attributes &&& 0x04 ≠ 0 then "<SYS>"
  else if attributes &&& 0x08 ≠ 0 then "<LBL>"
  else if attributes &&& 0x10 ≠ 0 then "<DIR>"
  else if attributes &&& 0x20 ≠ 0 then "<FIL>"
  else "<UNK>"

/-- The values that `print_entry` prints. -/
structure EntryLine where
  year : Nat
  month : Nat
  day : Nat
  hour : Nat
  minute : Nat
  second : Nat
  attributes : String
  filename : List UInt8
  ext : List UInt8
  fileSize : Int
deriving Repr, DecidableEq

/-- `print_entry`.  The precisions of `%.8s` and `%.3s` are the lengths of the fields,
so that only a NUL ends them earlier. -/
def printEntry (entry : Fat16Entry) : EntryLine where
  year := (entry.modifyDate.toNat / 2 ^ 9) % 2 ^ 7 + 1980
  month := (entry.modifyDate.toNat / 2 ^ 5) % 2 ^ 4
  day := entry.modifyDate.toNat % 2 ^ 5
  hour := (entry.modifyTime.toNat / 2 ^ 11) % 2 ^ 5
  minute := (entry.modifyTime.toNat / 2 ^ 5) % 2 ^ 6
  second := entry.modifyTime.toNat % 2 ^ 5 * 2
  attributes := getAttributes entry.attributes
  filename := entry.filename.takeWhile (· ≠ 0)
  ext := entry.ext.takeWhile (· ≠ 0)
  fileSize := int32 entry.fileSize.toNat

/-! ### list_files -/

/-- One turn of either loop of `list_files`. -/
def listTurn (_index : Nat) (entry : Fat16Entry) (position : Nat) (lines : List EntryLine) :
    Option (Flow (List EntryLine) Empty) :=
  if entry.firstByte ≠ 0 then some (.next (lines ++ [printEntry entry]) position)
  else some (.next lines position)

/-- `list_files`: the lines printed and the position left; `fuel` bounds the turns of
its `while` loop. -/
def listFiles (volume : Volume) (fuel : Nat) (navigator : Navigator) :
    Option (List EntryLine × Nat) :=
  let position := fseek navigator.currentDirectoryOffset navigator.position
  if navigator.currentDirectoryOffset = volume.rootDirectoryOffset then
    match forEntries volume listTurn volume.bs.rootDirEntries.toNat 0 volume.uninitialised
        position [] with
    | some (.next lines position, _) => some (lines, position)
    | _ => none
  else
    match walkChain volume (fun _ => listTurn) fuel
        navigator.currentDirectoryEntry.startingCluster.toNat volume.uninitialised position [] with
    | some (.next lines position) => some (lines, position)
    | _ => none

/-- The lines for the entries that are in use as far as the program sees. -/
def usedLines (entries : List Fat16Entry) : List EntryLine :=
  (entries.filter fun entry => entry.firstByte ≠ 0).map printEntry

variable {volume : Volume}

theorem listTurn_eq (index : Nat) (entry : Fat16Entry) (position : Nat) (lines : List EntryLine) :
    listTurn index entry position lines = some (.next (lines ++ usedLines [entry]) position) := by
  unfold listTurn usedLines
  split
  · rename_i used
    simp [used]
  · rename_i unused
    simp [unused]

theorem usedLines_append (first second : List Fat16Entry) :
    usedLines (first ++ second) = usedLines first ++ usedLines second := by
  simp [usedLines]

/-- What the lines are after some entries. -/
theorem listTurn_next {consumed : List Fat16Entry} {index : Nat} {entry : Fat16Entry}
    {position finish : Nat} {before after : List EntryLine} (printed : before = usedLines consumed)
    (turned : listTurn index entry position before = some (.next after finish)) :
    finish = position ∧ after = usedLines (consumed ++ [entry]) := by
  rw [listTurn_eq] at turned
  cases turned
  exact ⟨rfl, by rw [usedLines_append, printed]⟩

/-- In the root directory the used entries are listed. -/
theorem listFiles_root {navigator : Navigator} (readable : volume.RootReadable)
    (inRoot : navigator.currentDirectoryOffset = volume.rootDirectoryOffset) (fuel : Nat) :
    ∃ finish, listFiles volume fuel navigator = some (usedLines volume.rootEntries, finish) := by
  have finishes : ∃ lines heldAfter, forEntries volume listTurn volume.bs.rootDirEntries.toNat 0
      volume.uninitialised (volume.rootDirectoryOffset.toNat + entrySize * 0) [] =
        some (.next lines (volume.rootDirectoryOffset.toNat +
          entrySize * (0 + volume.bs.rootDirEntries.toNat)), heldAfter) := by
    apply forEntries_total readable.entriesInside
    intro index entry _ lines
    exact ⟨_, listTurn_eq index entry _ lines⟩
  obtain ⟨lines, heldAfter, looped⟩ := finishes
  have printed := forEntries_rule (fun consumed lines => lines = usedLines consumed)
    (fun _ _ _ _ _ _ printed turned => listTurn_next printed turned)
    readable.entriesInside
    (show [] = usedLines [] from rfl) looped
  unfold listFiles
  simp only [inRoot, if_true, readable.sought, looped]
  exact ⟨_, by rw [printed.2]; rfl⟩

/-- In another directory with a chain the used entries of the chain are listed. -/
theorem listFiles_chain {navigator : Navigator} {clusters : List Nat}
    (chain : volume.Chain navigator.currentDirectoryEntry.startingCluster.toNat clusters)
    (elsewhere : navigator.currentDirectoryOffset ≠ volume.rootDirectoryOffset) {fuel : Nat}
    (enough : clusters.length < fuel) :
    ∃ finish, listFiles volume fuel navigator =
      some (usedLines (volume.directoryEntries clusters), finish) := by
  have finishes : ∃ lines finish, walkChain volume (fun _ => listTurn) fuel
      navigator.currentDirectoryEntry.startingCluster.toNat volume.uninitialised
      (fseek navigator.currentDirectoryOffset navigator.position) [] =
        some (.next lines finish) := by
    apply walkChain_total chain _ enough
    intro offset _ index entry _ lines
    exact ⟨_, listTurn_eq index entry _ lines⟩
  obtain ⟨lines, finish, walked⟩ := finishes
  have printed := walkChain_rule (fun consumed lines => lines = usedLines consumed)
    (fun _ _ _ _ _ _ _ _ printed turned => listTurn_next printed turned) chain
    (show [] = usedLines [] from rfl) walked
  unfold listFiles
  simp only [elsewhere, if_false, walked]
  exact ⟨finish, by rw [printed]; rfl⟩

/-- `list_files` prints these lines. -/
def Lists (volume : Volume) (navigator : Navigator) (lines : List EntryLine) : Prop :=
  ∃ fuel finish, listFiles volume fuel navigator = some (lines, finish)

theorem lists_root {navigator : Navigator} (readable : volume.RootReadable)
    (inRoot : navigator.currentDirectoryOffset = volume.rootDirectoryOffset)
    (lines : List EntryLine) :
    Lists volume navigator lines ↔ lines = usedLines volume.rootEntries := by
  constructor
  · rintro ⟨fuel, finish, listed⟩
    obtain ⟨stop, printed⟩ := listFiles_root readable inRoot fuel
    rw [printed] at listed
    cases listed
    rfl
  · rintro rfl
    exact ⟨0, listFiles_root readable inRoot 0⟩

theorem lists_chain {navigator : Navigator} {clusters : List Nat}
    (chain : volume.Chain navigator.currentDirectoryEntry.startingCluster.toNat clusters)
    (elsewhere : navigator.currentDirectoryOffset ≠ volume.rootDirectoryOffset)
    (lines : List EntryLine) :
    Lists volume navigator lines ↔ lines = usedLines (volume.directoryEntries clusters) := by
  constructor
  · rintro ⟨fuel, finish, listed⟩
    unfold listFiles at listed
    simp only [elsewhere, if_false] at listed
    split at listed
    · rename_i printed stop walked
      cases listed
      exact walkChain_rule (fun consumed lines => lines = usedLines consumed)
        (fun _ _ _ _ _ _ _ _ printed turned => listTurn_next printed turned) chain
        (show [] = usedLines [] from rfl) walked
    · cases listed
  · rintro rfl
    exact ⟨_, listFiles_chain chain elsewhere (Nat.lt_succ_self _)⟩

end Ivos.Fat
