/-
Module: Ivos.Fat.Navigation
Purpose: `change_directory` and the runs of it, and when the offset test tells the
  root directory from the others.
Trusted boundary: none
Main exports: Navigator, changeDirectory, navigation, visiting, TellsRoot,
  tells_root_iff, directory_taken_for_root
-/
import Ivos.Library.PartialMachine
import Ivos.Fat.TreeListing

namespace Ivos.Fat

/-! ### change_directory

Where the program is, it remembers in three globals: the entry it entered, the offset it
computed for it, and the path that the prompt shows.  Whether it is in the root directory
is decided by the offset alone.  The path is kept up to its NUL; `current_directory` has
1024 bytes, and `snprintf` cuts off what does not fit.
-/

/-- The globals of `fat.c` that `change_directory` changes, and the position of
the stream. -/
structure Navigator where
  currentDirectoryEntry : Fat16Entry
  /-- The string `current_directory`, up to its NUL. -/
  currentDirectory : List UInt8
  currentDirectoryOffset : Int
  position : Nat
deriving Repr, DecidableEq

/-- `strncmp(first, second, count) == 0`. -/
def strncmpEq : Nat → List UInt8 → List UInt8 → Bool
  | 0, _, _ => true
  | count + 1, first :: firstRest, second :: secondRest =>
      first = second ∧ (first = 0 ∨ strncmpEq count firstRest secondRest)
  | _ + 1, first, second => first = second

/-- `snprintf` of `"%c%s"` behind the string in the 1024 bytes of
`current_directory`. -/
def appendName (path name : List UInt8) : List UInt8 :=
  path ++ (0x2F :: name).take (1023 - path.length)

/-- `remove_right_including`. -/
def removeRightIncluding (path : List UInt8) (target : UInt8) : List UInt8 :=
  match path.reverse.dropWhile fun byte => byte ≠ target with
  | [] => path
  | _ :: kept => kept.reverse

/-- One turn of the search for a directory: its first match ends the search. -/
def directoryTurn (name : List UInt8) (_index : Nat) (entry : Fat16Entry) (position : Nat)
    (state : Unit) : Option (Flow Unit Fat16Entry) :=
  if entry.firstByte ≠ 0 ∧ entry.isDirectory then
    if strncmpEq 8 entry.filename name then some (.done entry position)
    else some (.next state position)
  else some (.next state position)

section Search

variable (volume : Volume)

/-- The search of `change_directory`, over the root directory or along the chain
of a cluster: the entry found, if any, and the position left. -/
def findDirectory (fuel : Nat) (name : List UInt8) (inRoot : Bool) (cluster position : Nat) :
    Option (Option Fat16Entry × Nat) :=
  if inRoot then
    match forEntries volume (directoryTurn name) volume.bs.rootDirEntries.toNat 0
        volume.uninitialised position () with
    | none => none
    | some (.done entry position, _) => some (some entry, position)
    | some (.next _ position, _) => some (none, position)
  else
    match walkChain volume (fun _ => directoryTurn name) fuel cluster volume.uninitialised
        position () with
    | none => none
    | some (.done entry position) => some (some entry, position)
    | some (.next _ position) => some (none, position)

/-- `starting_cluster * sector_size`, as stored in an `int`. -/
def Volume.directoryOffset (entry : Fat16Entry) : Int :=
  int32 (entry.startingCluster.toNat * volume.bs.sectorSize.toNat)

/-- The name padded to the 8 bytes of a directory entry. -/
def paddedName (newDirectory : List UInt8) : List UInt8 :=
  newDirectory ++ List.replicate (8 - newDirectory.length) 0x20

/-- What `change_directory` assigns when its search has found an entry, in the
branch for the root directory or in the other one. -/
def enterDirectory (inRoot : Bool) (newDirectory : List UInt8) (entry : Fat16Entry)
    (navigator : Navigator) : Navigator :=
  let entered := { navigator with currentDirectoryEntry := entry }
  if inRoot then
    { entered with
      currentDirectoryOffset := volume.directoryOffset entry
      currentDirectory := appendName navigator.currentDirectory newDirectory }
  else if entry.startingCluster = 0 then
    { entered with
      currentDirectoryOffset := volume.rootDirectoryOffset
      currentDirectory := removeRightIncluding navigator.currentDirectory 0x2F }
  else
    let entered := { entered with currentDirectoryOffset := volume.directoryOffset entry }
    -- The test compares the value just assigned with itself.
    if entered.currentDirectoryOffset = volume.directoryOffset entry then entered
    else
      { entered with
        currentDirectory := appendName navigator.currentDirectory newDirectory }

/-- `change_directory`; `none` as the argument is a null pointer, `fuel` bounds the
turns of its `while` loop. -/
def changeDirectory (fuel : Nat) (newDirectory : Option (List UInt8)) (navigator : Navigator) :
    Option Navigator :=
  match newDirectory with
  | none => some navigator
  | some newDirectory =>
      if newDirectory.length > 8 then some navigator
      else
        let inRoot := navigator.currentDirectoryOffset == volume.rootDirectoryOffset
        (findDirectory volume fuel (paddedName newDirectory) inRoot
          navigator.currentDirectoryEntry.startingCluster.toNat
          (fseek navigator.currentDirectoryOffset navigator.position)).map fun result =>
            let searched := { navigator with position := result.2 }
            match result.1 with
            | none => searched
            | some entry => enterDirectory volume inRoot newDirectory entry searched

/-- A zeroed entry, as the global `current_directory_entry` starts out. -/
def Fat16Entry.zero : Fat16Entry :=
  .decode fun _ => 0

/-- The state `main` sets up. -/
def Navigator.start (position : Nat) : Navigator where
  currentDirectoryEntry := .zero
  currentDirectory := [0x2F, 0x72, 0x6F, 0x6F, 0x74]
  currentDirectoryOffset := volume.rootDirectoryOffset
  position := position

/-- The runs of `change_directory`: each call with its argument and a bound on its
loop. -/
def navigation : PartialMachine Navigator (Option (List UInt8) × Nat) where
  step navigator call := changeDirectory volume call.2 call.1 navigator

/-- FAT16 writes the root directory as cluster 0: the offset test is right when it
holds exactly of an entry with that cluster. -/
def TellsRoot (navigator : Navigator) : Prop :=
  navigator.currentDirectoryOffset = volume.rootDirectoryOffset ↔
    navigator.currentDirectoryEntry.startingCluster = 0

instance (navigator : Navigator) : Decidable (TellsRoot volume navigator) := by
  unfold TellsRoot
  infer_instance

/-! ### The directories that can be entered

The offset test is judged against a visitor who follows the same entries on the volume and
knows by the cluster of its entry where it is.
-/

/-- A visitor who remembers the entry of the directory it is in. -/
structure Visitor where
  directory : Fat16Entry
  position : Nat
deriving Repr, DecidableEq

/-- Where the directory of an entry is sought. -/
def Volume.seekOffset (entry : Fat16Entry) : Int :=
  if entry.startingCluster = 0 then volume.rootDirectoryOffset else volume.directoryOffset entry

/-- A visit by name, from the root when the cluster of the entry is 0. -/
def visit (fuel : Nat) (newDirectory : Option (List UInt8)) (visitor : Visitor) :
    Option Visitor :=
  match newDirectory with
  | none => some visitor
  | some newDirectory =>
      if newDirectory.length > 8 then some visitor
      else
        (findDirectory volume fuel (paddedName newDirectory)
          (visitor.directory.startingCluster == 0) visitor.directory.startingCluster.toNat
          (fseek (volume.seekOffset visitor.directory) visitor.position)).map fun result =>
            ⟨result.1.getD visitor.directory, result.2⟩

/-- The runs of visits. -/
def visiting : PartialMachine Visitor (Option (List UInt8) × Nat) where
  step visitor call := visit volume call.2 call.1 visitor

end Search

variable {volume : Volume}

/-- A root directory inside the image whose directories have clusters of their
own. -/
structure WellFormedRoot (volume : Volume) : Prop where
  readable : volume.RootReadable
  clusters : ∀ entry ∈ volume.rootEntries, entry.firstByte ≠ 0 → entry.isDirectory →
    entry.startingCluster ≠ 0

/-- What the search takes: an entry that is in use as far as the program sees, is
a directory and has the name. -/
def TakenFor (name : List UInt8) (entry : Fat16Entry) : Prop :=
  (entry.firstByte ≠ 0 ∧ entry.isDirectory) ∧ strncmpEq 8 entry.filename name

instance (name : List UInt8) (entry : Fat16Entry) : Decidable (TakenFor name entry) :=
  inferInstanceAs (Decidable (_ ∧ _))

theorem directoryTurn_eq (name : List UInt8) (index : Nat) (entry : Fat16Entry) (position : Nat)
    (state : Unit) :
    directoryTurn name index entry position state =
      if TakenFor name entry then some (.done entry position) else some (.next state position) := by
  unfold directoryTurn
  by_cases taken : TakenFor name entry
  · rw [if_pos taken, if_pos taken.1, if_pos taken.2]
  · rw [if_neg taken]
    split
    · rename_i directory
      rw [if_neg fun same => taken ⟨directory, same⟩]
    · rfl

theorem directoryTurn_next {name : List UInt8} {index : Nat} {entry : Fat16Entry}
    {position finish : Nat} {before after : Unit}
    (turned : directoryTurn name index entry position before = some (.next after finish)) :
    finish = position ∧ ¬ TakenFor name entry := by
  rw [directoryTurn_eq] at turned
  split at turned
  · cases turned
  · rename_i other
    cases turned
    exact ⟨rfl, other⟩

theorem directoryTurn_done {name : List UInt8} {index : Nat} {entry found : Fat16Entry}
    {position finish : Nat} {before : Unit}
    (turned : directoryTurn name index entry position before = some (.done found finish)) :
    found = entry ∧ TakenFor name entry := by
  rw [directoryTurn_eq] at turned
  split at turned
  · rename_i taken
    cases turned
    exact ⟨rfl, taken⟩
  · cases turned

theorem directoryTurn_passed {name : List UInt8} {consumed : List Fat16Entry} {index : Nat}
    {entry : Fat16Entry} {position finish : Nat} {before after : Unit}
    (passed : ∀ earlier ∈ consumed, ¬ TakenFor name earlier)
    (turned : directoryTurn name index entry position before = some (.next after finish)) :
    finish = position ∧ ∀ candidate ∈ consumed ++ [entry], ¬ TakenFor name candidate := by
  obtain ⟨kept, other⟩ := directoryTurn_next turned
  refine ⟨kept, fun candidate member => ?_⟩
  rcases List.mem_append.mp member with earlier | last
  · exact passed candidate earlier
  · rw [List.mem_singleton.mp last]
    exact other

/-- The outcome of a search over the entries of a directory. -/
def Searched (name : List UInt8) (entries : List Fat16Entry) : Option Fat16Entry → Prop
  | some found => found ∈ entries ∧ TakenFor name found
  | none => ∀ entry ∈ entries, ¬ TakenFor name entry

theorem findDirectory_root {fuel : Nat} {name : List UInt8} {cluster position finish : Nat}
    {result : Option Fat16Entry} (readable : volume.RootReadable)
    (ran : findDirectory volume fuel name true cluster
      (fseek volume.rootDirectoryOffset position) = some (result, finish)) :
    Searched name volume.rootEntries result := by
  unfold findDirectory at ran
  rw [if_pos rfl, readable.sought] at ran
  split at ran
  · cases ran
  · rename_i found stop held looped
    cases ran
    obtain ⟨index, entry, member, state, turned⟩ :=
      forEntries_done (fun _ _ _ _ _ turned => (directoryTurn_next turned).1)
        readable.entriesInside looped
    obtain ⟨rfl, taken⟩ := directoryTurn_done turned
    exact ⟨member, taken⟩
  · rename_i state stop held looped
    cases ran
    have passed := forEntries_rule (fun consumed _ => ∀ entry ∈ consumed, ¬ TakenFor name entry)
      (fun _ _ _ _ _ _ passed turned => directoryTurn_passed passed turned)
      readable.entriesInside (fun _ member => absurd member List.not_mem_nil) looped
    exact passed.2

theorem findDirectory_chain {fuel : Nat} {name : List UInt8} {cluster position finish : Nat}
    {clusters : List Nat} {result : Option Fat16Entry} (chain : volume.Chain cluster clusters)
    (ran : findDirectory volume fuel name false cluster position = some (result, finish)) :
    Searched name (volume.directoryEntries clusters) result := by
  unfold findDirectory at ran
  rw [if_neg Bool.false_ne_true] at ran
  split at ran
  · cases ran
  · rename_i found stop walked
    cases ran
    obtain ⟨offset, index, entry, member, state, turned⟩ :=
      walkChain_done (fun _ _ _ _ _ _ _ turned => (directoryTurn_next turned).1) chain walked
    obtain ⟨rfl, taken⟩ := directoryTurn_done turned
    exact ⟨member, taken⟩
  · rename_i state stop walked
    cases ran
    exact walkChain_rule (fun consumed _ => ∀ entry ∈ consumed, ¬ TakenFor name entry)
      (fun _ _ _ _ _ _ _ _ passed turned => directoryTurn_passed passed turned)
      chain (fun _ member => absurd member List.not_mem_nil) walked

/-- The navigator and the visitor are in the same directory. -/
structure Together (volume : Volume) (navigator : Navigator) (visitor : Visitor) : Prop where
  entry : navigator.currentDirectoryEntry = visitor.directory
  position : navigator.position = visitor.position
  offset : navigator.currentDirectoryOffset = volume.seekOffset visitor.directory

/-- The offset of the visitor's directory is not mistaken for that of the root. -/
def Distinct (volume : Volume) (visitor : Visitor) : Prop :=
  visitor.directory.startingCluster ≠ 0 →
    volume.directoryOffset visitor.directory ≠ volume.rootDirectoryOffset

theorem Together.tellsRoot_iff {navigator : Navigator} {visitor : Visitor}
    (together : Together volume navigator visitor) :
    TellsRoot volume navigator ↔ Distinct volume visitor := by
  unfold TellsRoot Distinct
  rw [together.entry, together.offset]
  unfold Volume.seekOffset
  by_cases isRoot : visitor.directory.startingCluster = 0
  · simp [isRoot]
  · simp [isRoot]

/-- What is found in the root has a cluster of its own, so the assignments of
either branch lead to the directory found. -/
theorem enterDirectory_offset {inRoot : Bool} {newDirectory : List UInt8} {entry : Fat16Entry}
    {navigator : Navigator} (notRoot : inRoot = true → entry.startingCluster ≠ 0) :
    (enterDirectory volume inRoot newDirectory entry navigator).currentDirectoryOffset =
      volume.seekOffset entry := by
  unfold enterDirectory Volume.seekOffset
  by_cases isRoot : entry.startingCluster = 0
  · have elsewhere : inRoot = false := by
      cases inRoot with
      | false => rfl
      | true => exact absurd isRoot (notRoot rfl)
    simp [isRoot, elsewhere]
  · cases inRoot with
    | false => simp [isRoot]
    | true => simp [isRoot]

theorem enterDirectory_entry (inRoot : Bool) (newDirectory : List UInt8) (entry : Fat16Entry)
    (navigator : Navigator) :
    (enterDirectory volume inRoot newDirectory entry navigator).currentDirectoryEntry = entry ∧
      (enterDirectory volume inRoot newDirectory entry navigator).position =
        navigator.position := by
  unfold enterDirectory
  cases inRoot with
  | true => exact ⟨rfl, rfl⟩
  | false =>
      by_cases isRoot : entry.startingCluster = 0
      · simp [isRoot]
      · simp [isRoot]

/-- From a directory whose offset is not mistaken, both take the same step. -/
theorem Together.step (wellFormed : WellFormedRoot volume) {navigator : Navigator}
    {visitor : Visitor} (together : Together volume navigator visitor)
    (distinct : Distinct volume visitor) (fuel : Nat) (newDirectory : Option (List UInt8)) :
    Option.Rel (Together volume) (changeDirectory volume fuel newDirectory navigator)
      (visit volume fuel newDirectory visitor) := by
  have tells := together.tellsRoot_iff.mpr distinct
  have flag : (visitor.directory.startingCluster == 0) =
      (navigator.currentDirectoryOffset == volume.rootDirectoryOffset) := by
    rw [Bool.eq_iff_iff, beq_iff_eq, beq_iff_eq, ← together.entry]
    exact tells.symm
  unfold changeDirectory visit
  cases newDirectory with
  | none => exact .some together
  | some newDirectory =>
      dsimp only
      split
      · exact .some together
      · rw [flag, ← together.offset, ← together.position, ← together.entry]
        cases searched : findDirectory volume fuel (paddedName newDirectory)
            (navigator.currentDirectoryOffset == volume.rootDirectoryOffset)
            navigator.currentDirectoryEntry.startingCluster.toNat
            (fseek navigator.currentDirectoryOffset navigator.position) with
        | none => exact .none
        | some result =>
            obtain ⟨found, position⟩ := result
            cases found with
            | none => exact .some ⟨rfl, rfl, together.entry ▸ together.offset⟩
            | some entry =>
                have notRoot (inRoot :
                    (navigator.currentDirectoryOffset == volume.rootDirectoryOffset) = true) :
                    entry.startingCluster ≠ 0 := by
                  rw [inRoot, beq_iff_eq.mp inRoot] at searched
                  obtain ⟨member, ⟨used, isDirectory⟩, -⟩ :=
                    findDirectory_root wellFormed.readable searched
                  exact wellFormed.clusters entry member used isDirectory
                exact .some ⟨(enterDirectory_entry ..).1, (enterDirectory_entry ..).2,
                  enterDirectory_offset notRoot⟩

/-- A visit that navigation follows, as long as no directory on the way is
mistaken for the root. -/
theorem navigates (wellFormed : WellFormedRoot volume) {position : Nat}
    (tells : ∀ navigator, (navigation volume).Reached PartialMachine.anyStep
      (.start volume position) navigator → TellsRoot volume navigator) {visitor : Visitor}
    (reached : (visiting volume).Reached PartialMachine.anyStep ⟨.zero, position⟩ visitor) :
    ∃ navigator, (navigation volume).Reached PartialMachine.anyStep (.start volume position)
      navigator ∧ Together volume navigator visitor := by
  induction reached with
  | start => exact ⟨_, .start, rfl, rfl, rfl⟩
  | @step before after call reached _ stepped inductionHypothesis =>
      obtain ⟨navigator, navigated, together⟩ := inductionHypothesis
      have same := together.step wellFormed (together.tellsRoot_iff.mp (tells _ navigated)) call.2
        call.1
      rw [show visit volume call.2 call.1 before = some after from stepped] at same
      cases moved : changeDirectory volume call.2 call.1 navigator with
      | none =>
          rw [moved] at same
          cases same
      | some next =>
          rw [moved] at same
          cases same with
          | some together => exact ⟨next, .step navigated trivial moved, together⟩

/-- A visitor that accompanies navigation. -/
theorem accompanied (wellFormed : WellFormedRoot volume) {position : Nat}
    (distinct : ∀ visitor, (visiting volume).Reached PartialMachine.anyStep
      ⟨.zero, position⟩ visitor → Distinct volume visitor) {navigator : Navigator}
    (reached : (navigation volume).Reached PartialMachine.anyStep (.start volume position)
      navigator) :
    ∃ visitor, (visiting volume).Reached PartialMachine.anyStep ⟨.zero, position⟩ visitor ∧
      Together volume navigator visitor := by
  induction reached with
  | start => exact ⟨_, .start, rfl, rfl, rfl⟩
  | @step before after call reached _ stepped inductionHypothesis =>
      obtain ⟨visitor, visited, together⟩ := inductionHypothesis
      have same := together.step wellFormed (distinct _ visited) call.2 call.1
      rw [show changeDirectory volume call.2 call.1 before = some after from stepped] at same
      cases moved : visit volume call.2 call.1 visitor with
      | none =>
          rw [moved] at same
          cases same
      | some next =>
          rw [moved] at same
          cases same with
          | some together => exact ⟨next, .step visited trivial moved, together⟩

/-- The offset test tells the root in every reachable state exactly when no
directory that can be entered by name has a cluster whose product with the sector
size is the offset of the root directory. -/
theorem tells_root_iff (volume : Volume) (position : Nat) (wellFormed : WellFormedRoot volume) :
    (∀ navigator, (navigation volume).Reached PartialMachine.anyStep (.start volume position)
      navigator → TellsRoot volume navigator) ↔
      ∀ visitor, (visiting volume).Reached PartialMachine.anyStep ⟨.zero, position⟩ visitor →
        Distinct volume visitor := by
  constructor
  · intro tells visitor reached
    obtain ⟨navigator, navigated, together⟩ := navigates wellFormed tells reached
    exact together.tellsRoot_iff.mp (tells navigator navigated)
  · intro distinct navigator reached
    obtain ⟨visitor, visited, together⟩ := accompanied wellFormed distinct reached
    exact together.tellsRoot_iff.mpr (distinct visitor visited)

/-- Laid out like `sampleImage`: `/A` at cluster 3, which is empty, is the only
directory, so that the listing at start-up ends. -/
def distantVolume : Volume :=
  mount
    (.ofPatches 3072
      [(454, [1]), (523, [0x00, 0x02, 1, 1, 0, 1, 16, 0]), (534, [1, 0]), (1030, [0xFF, 0xFF]),
        (1536, entryBytes [0x41] 0x10 3),
        (2560, entryBytes [0x2E] 0x10 3 ++ entryBytes [0x2E, 0x2E] 0x10 0)])
    fun _ => 0

theorem distantVolume_wellFormed : WellFormedVolume distantVolume where
  root := ⟨by decide, by decide⟩
  subdirectories := by
    have root : ∀ entry ∈ distantVolume.rootEntries, entry.Listed → entry.isDirectory →
        entry.startingCluster = 3 := by decide
    have chain : distantVolume.Chain 3 [3] :=
      .link (by decide) (by decide) ⟨by decide, by decide, by decide, by decide⟩
        (.finish (by decide))
    have empty : ∀ entry ∈ distantVolume.directoryEntries [3], ¬ entry.Listed := by decide
    intro entry member listed isDirectory
    rw [root entry member listed isDirectory]
    exact .intro chain (by decide) (by decide) (by decide) (by decide)
      fun none isIn noneListed => absurd noneListed (empty none isIn)

/-- In `/A`, at cluster 3, the program takes itself to be in the root, which
begins at byte 3 * 512. -/
theorem distant_directory_mistaken : ∃ navigator,
    (navigation distantVolume).Reached PartialMachine.anyStep (.start distantVolume 0) navigator ∧
      ¬ TellsRoot distantVolume navigator :=
  PartialMachine.exists_reached_of_any
    (navigation distantVolume) PartialMachine.anyStep (.start distantVolume 0)
    [(some [0x41], 0)] (fun navigator => ¬ TellsRoot distantVolume navigator) (by decide)

/-- So a directory of that volume has the offset of the root. -/
theorem distant_directory_not_distinct :
    ¬ ∀ visitor, (visiting distantVolume).Reached PartialMachine.anyStep ⟨.zero, 0⟩ visitor →
      Distinct distantVolume visitor := by
  intro distinct
  have wellFormed : WellFormedRoot distantVolume := ⟨distantVolume_wellFormed.root, by decide⟩
  obtain ⟨navigator, reached, mistaken⟩ := distant_directory_mistaken
  exact mistaken ((tells_root_iff distantVolume 0 wellFormed).mpr distinct navigator reached)

/-- On a well-formed volume a sub-directory can be taken for the root. -/
theorem directory_taken_for_root :
    ¬ ∀ (image : Image) (uninitialised : Bytes) (position : Nat) (navigator : Navigator),
      WellFormedVolume (mount image uninitialised) →
        (navigation (mount image uninitialised)).Reached PartialMachine.anyStep
          (.start (mount image uninitialised) position) navigator →
            TellsRoot (mount image uninitialised) navigator := by
  intro claimed
  obtain ⟨navigator, reached, mistaken⟩ := distant_directory_mistaken
  exact mistaken (claimed _ _ 0 navigator distantVolume_wellFormed reached)

end Ivos.Fat
