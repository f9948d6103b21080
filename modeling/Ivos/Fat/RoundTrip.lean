/-
Module: Ivos.Fat.RoundTrip
Purpose: `change_directory` into a sub-directory and back with `..`, at any depth of the
  tree.
Trusted boundary: none
Main exports: PlainTree, Located, EntersChild, LeavesTo, Lists, Restored, cd_round_trip
-/
import Ivos.Fat.CorruptChains
import Ivos.Fat.PromptPath

namespace Ivos.Fat

/-! ### Trees without mistaken directories -/

/-- A volume whose directories form a tree, with names that contain no `/` and are not
`.` or `..`, and no directory that the program takes for the root. -/
structure PlainTree (volume : Volume) : Prop where
  wellFormed : WellFormedVolume volume
  names : ∀ path directory entry, PathTo volume path directory →
    volume.Subdirectory directory entry →
      0x2F ∉ entry.filename ∧ entry.filename ≠ dotName 1 ∧ entry.filename ≠ dotName 2
  rootHasNoDotDot : ∀ entry ∈ volume.rootEntries, entry.firstByte ≠ 0 → entry.isDirectory →
    entry.filename ≠ dotName 2
  distinct : ∀ path directory entry, PathTo volume path directory →
    volume.Subdirectory directory entry →
      volume.directoryOffset entry ≠ volume.rootDirectoryOffset

variable {volume : Volume}

/-- Every directory of the tree is well formed, with `..` leading to the one it is in. -/
theorem PathTo.wellFormed (wellFormed : WellFormedVolume volume) {path : List (List UInt8)}
    {directory : UInt16} (reached : PathTo volume path directory) {entry : Fat16Entry}
    (inside : volume.Subdirectory directory entry) :
    WellFormedDirectory volume entry.startingCluster directory := by
  induction reached generalizing entry with
  | root =>
      have member := inside.held
      unfold Volume.Holds at member
      rw [if_pos rfl] at member
      exact wellFormed.subdirectories entry member inside.listed inside.isDirectory
  | child above around inductionHypothesis =>
      have outer := inductionHypothesis around
      have held := inside.held
      unfold Volume.Holds at held
      rw [if_neg outer.ne_zero] at held
      obtain ⟨clusters, chain, member⟩ := held
      exact outer.child chain member inside.listed inside.isDirectory

/-- A directory of the tree that is not the root is in a directory of the tree. -/
theorem PathTo.above {path : List (List UInt8)} {directory : UInt16}
    (reached : PathTo volume path directory) (notRoot : directory ≠ 0) :
    ∃ above parent entry, PathTo volume above parent ∧ volume.Subdirectory parent entry ∧
      entry.startingCluster = directory := by
  cases reached with
  | root => exact absurd rfl notRoot
  | child above inside => exact ⟨_, _, _, above, inside, rfl⟩

/-- The offset of a directory comes from its cluster. -/
theorem Volume.seekOffset_congr {first second : Fat16Entry}
    (same : first.startingCluster = second.startingCluster) :
    volume.seekOffset first = volume.seekOffset second := by
  unfold Volume.seekOffset Volume.directoryOffset
  rw [same]

/-! ### Where the program is

The state of the program is tied to a place in the tree: the offset, the entry and the path
all belong to the same directory.  Every state that `cd` reaches is tied to some place.
-/

/-- The program is in a directory of the tree, and the prompt shows the directory of the
root that it is in or below. -/
structure Located (volume : Volume) (navigator : Navigator) : Prop where
  inTree : ∃ path, PathTo volume path navigator.currentDirectoryEntry.startingCluster
  offset : navigator.currentDirectoryOffset = volume.seekOffset navigator.currentDirectoryEntry
  prompt : if navigator.currentDirectoryEntry.startingCluster = 0 then
      navigator.currentDirectory = promptOf []
    else ∃ name, 0x2F ∉ name ∧ navigator.currentDirectory = promptOf [name]

/-- The outcome of a search in a directory. -/
def SearchedIn (volume : Volume) (directory : UInt16) (name : List UInt8) :
    Option Fat16Entry → Prop
  | some found => volume.Holds directory found ∧ TakenFor name found
  | none => ∀ entry, volume.Holds directory entry → ¬ TakenFor name entry

namespace Located

variable {navigator after : Navigator} {fuel : Nat}

theorem start (volume : Volume) (position : Nat) : Located volume (.start volume position) :=
  ⟨⟨[], .root⟩, rfl, rfl⟩

/-- The offset tells the root. -/
theorem inRoot_iff (located : Located volume navigator) (tree : PlainTree volume) :
    navigator.currentDirectoryOffset = volume.rootDirectoryOffset ↔
      navigator.currentDirectoryEntry.startingCluster = 0 := by
  rw [located.offset]
  by_cases isRoot : navigator.currentDirectoryEntry.startingCluster = 0
  · exact iff_of_true (if_pos isRoot) isRoot
  · obtain ⟨path, reached⟩ := located.inTree
    obtain ⟨above, parent, entry, toParent, inside, same⟩ := reached.above isRoot
    apply iff_of_false _ isRoot
    rw [← Volume.seekOffset_congr same, Volume.seekOffset, if_neg (same ▸ isRoot)]
    exact tree.distinct above parent entry toParent inside

/-- The chain of the current directory, when it is not the root. -/
theorem chain (located : Located volume navigator) (tree : PlainTree volume)
    (notRoot : navigator.currentDirectoryEntry.startingCluster ≠ 0) :
    ∃ clusters, volume.Chain navigator.currentDirectoryEntry.startingCluster.toNat clusters := by
  obtain ⟨path, reached⟩ := located.inTree
  obtain ⟨above, parent, entry, toParent, inside, same⟩ := reached.above notRoot
  rw [← same]
  exact (toParent.wellFormed tree.wellFormed inside).chain

/-- A call searches the current directory. -/
theorem searches (located : Located volume navigator) (tree : PlainTree volume)
    {name : List UInt8} (short : name.length ≤ 8)
    (ran : changeDirectory volume fuel (some name) navigator = some after) :
    ∃ result, SearchedIn volume navigator.currentDirectoryEntry.startingCluster (paddedName name)
        result ∧
      Arrives volume (navigator.currentDirectoryEntry.startingCluster == 0) name navigator after
        result := by
  rcases changeDirectory_spec tree.wellFormed.root short ran with
    ⟨offset, result, searched, arrives⟩ | ⟨elsewhere, result, searched, arrives⟩
  · have isRoot := (located.inRoot_iff tree).mp offset
    refine ⟨result, ?_, by rw [isRoot]; exact arrives⟩
    unfold SearchedIn Volume.Holds
    rw [isRoot]
    simp only [if_pos]
    cases result with
    | none => exact searched
    | some found => exact searched
  · have notRoot := fun isRoot => elsewhere ((located.inRoot_iff tree).mpr isRoot)
    refine ⟨result, ?_, by rw [beq_eq_false_iff_ne.mpr notRoot]; exact arrives⟩
    obtain ⟨clusters, chain⟩ := located.chain tree notRoot
    have outcome := searched clusters chain
    cases result with
    | none =>
        intro entry held
        unfold Volume.Holds at held
        rw [if_neg notRoot] at held
        obtain ⟨others, otherChain, member⟩ := held
        obtain rfl := chain.unique otherChain
        exact outcome entry member
    | some found => exact ⟨.of_chain notRoot chain outcome.1, outcome.2⟩

end Located

/-- The search for `..` finds the way up. -/
theorem PlainTree.parent_found (tree : PlainTree volume) {path : List (List UInt8)}
    {parent : UInt16} {directory : Fat16Entry} (reached : PathTo volume path parent)
    (inside : volume.Subdirectory parent directory) {result : Option Fat16Entry}
    (searched : SearchedIn volume directory.startingCluster (paddedName parentName) result) :
    ∃ found, result = some found ∧ found.startingCluster = parent := by
  have below := reached.wellFormed tree.wellFormed inside
  have notRoot := below.ne_zero
  cases below with
  | intro chain hasDot hasDotDot dots dotDots subdirectories =>
      cases result with
      | none =>
          obtain ⟨entry, member, isDotDot⟩ := hasDotDot
          have used : entry.firstByte ≠ 0 := by
            rw [Fat16Entry.firstByte, isDotDot.1]
            decide
          have taken : TakenFor (paddedName parentName) entry :=
            (takenFor_parentName_iff (length_filename_directory member)).mpr
              ⟨⟨used, (dotDots entry member isDotDot).1⟩, isDotDot.1⟩
          exact absurd taken (searched entry (.of_chain notRoot chain member))
      | some found =>
          obtain ⟨held, taken⟩ := searched
          obtain ⟨⟨used, isDirectory⟩, named⟩ :=
            (takenFor_parentName_iff held.length_filename).mp taken
          have isDotDot : found.IsDotDot := by
            by_contra other
            have listed := found.listed_of_named used named other
            exact (tree.names _ _ _ (.child reached inside) ⟨held, listed, isDirectory⟩).2.2 named
          unfold Volume.Holds at held
          rw [if_neg notRoot] at held
          obtain ⟨others, otherChain, member⟩ := held
          obtain rfl := chain.unique otherChain
          exact ⟨found, rfl, (dotDots found member isDotDot).2⟩

/-! ### Moves -/

/-- The program has moved into a sub-directory that is called so. -/
structure EntersChild (volume : Volume) (before after : Navigator) (called : List UInt8) :
    Prop where
  inside : volume.Subdirectory before.currentDirectoryEntry.startingCluster
    after.currentDirectoryEntry
  name : after.currentDirectoryEntry.name = called
  offset : after.currentDirectoryOffset = volume.seekOffset after.currentDirectoryEntry
  prompt : after.currentDirectory =
    if before.currentDirectoryEntry.startingCluster = 0 then promptOf [called]
    else before.currentDirectory

/-- The program has moved up to the directory at this cluster. -/
structure LeavesTo (volume : Volume) (before after : Navigator) (parent : UInt16) : Prop where
  cluster : after.currentDirectoryEntry.startingCluster = parent
  offset : after.currentDirectoryOffset = volume.seekOffset after.currentDirectoryEntry
  prompt : after.currentDirectory =
    if parent = 0 then removeRightIncluding before.currentDirectory 0x2F
    else before.currentDirectory

namespace Located

variable {navigator after : Navigator} {fuel : Nat}

/-- A named sub-directory is entered. -/
theorem enters (located : Located volume navigator) (tree : PlainTree volume)
    {entry : Fat16Entry}
    (inside : volume.Subdirectory navigator.currentDirectoryEntry.startingCluster entry)
    (noNul : 0 ∉ entry.name)
    (ran : changeDirectory volume fuel (some entry.name) navigator = some after) :
    EntersChild volume navigator after entry.name := by
  obtain ⟨path, reached⟩ := located.inTree
  have short := Fat16Entry.length_name_le inside.held.length_filename
  obtain ⟨result, searched, position, rfl⟩ := located.searches tree short ran
  cases result with
  | none => exact absurd (inside.taken noNul) (searched entry inside.held)
  | some found =>
      obtain ⟨held, taken⟩ := searched
      obtain ⟨isIn, sameName⟩ :=
        inside.of_taken noNul held (tree.names _ _ _ reached inside).2 taken
      have notRoot := (reached.wellFormed tree.wellFormed isIn).ne_zero
      have prompt := located.prompt
      constructor
      · exact (enterDirectory_entry ..).1 ▸ isIn
      · exact (congrArg Fat16Entry.name (enterDirectory_entry ..).1).trans sameName
      · rw [enterDirectory_offset fun _ => notRoot, (enterDirectory_entry ..).1]
      · by_cases isRoot : navigator.currentDirectoryEntry.startingCluster = 0
        · rw [if_pos isRoot] at prompt ⊢
          simp only [isRoot, beq_self_eq_true, enterDirectory, if_true, prompt]
          apply appendName_promptOf
          rw [length_promptOf, List.map_nil, List.sum_nil]
          omega
        · rw [if_neg isRoot]
          simp [enterDirectory, isRoot, notRoot]

/-- `..` leads out of a sub-directory. -/
theorem leaves (located : Located volume navigator) (tree : PlainTree volume)
    {path : List (List UInt8)} {parent : UInt16} {directory : Fat16Entry}
    (reached : PathTo volume path parent) (inside : volume.Subdirectory parent directory)
    (same : directory.startingCluster = navigator.currentDirectoryEntry.startingCluster)
    (ran : changeDirectory volume fuel (some parentName) navigator = some after) :
    LeavesTo volume navigator after parent := by
  have notRoot := (reached.wellFormed tree.wellFormed inside).ne_zero
  obtain ⟨result, searched, position, rfl⟩ := located.searches tree (by decide) ran
  rw [← same] at searched
  obtain ⟨found, rfl, rfl⟩ := tree.parent_found reached inside searched
  rw [same] at notRoot
  have elsewhere : (navigator.currentDirectoryEntry.startingCluster == 0) = false :=
    beq_eq_false_iff_ne.mpr notRoot
  rw [elsewhere]
  constructor
  · exact congrArg Fat16Entry.startingCluster (enterDirectory_entry ..).1
  · rw [enterDirectory_offset fun inRoot => absurd inRoot Bool.false_ne_true,
      (enterDirectory_entry ..).1]
  · by_cases toRoot : found.startingCluster = 0
    · simp [enterDirectory, toRoot]
    · simp [enterDirectory, toRoot]

/-- In the root `..` does nothing. -/
theorem stays (located : Located volume navigator) (tree : PlainTree volume)
    (isRoot : navigator.currentDirectoryEntry.startingCluster = 0)
    (ran : changeDirectory volume fuel (some parentName) navigator = some after) :
    ∃ position, after = { navigator with position := position } := by
  obtain ⟨result, searched, position, rfl⟩ := located.searches tree (by decide) ran
  cases result with
  | none => exact ⟨position, rfl⟩
  | some found =>
      obtain ⟨held, taken⟩ := searched
      obtain ⟨⟨used, isDirectory⟩, named⟩ :=
        (takenFor_parentName_iff held.length_filename).mp taken
      unfold Volume.Holds at held
      rw [if_pos isRoot] at held
      exact absurd named (tree.rootHasNoDotDot found held used isDirectory)

end Located

/-- Behind a move into a sub-directory the program is in the tree. -/
theorem EntersChild.located {before after : Navigator} {called : List UInt8}
    (enters : EntersChild volume before after called) (tree : PlainTree volume)
    (located : Located volume before) : Located volume after := by
  obtain ⟨path, reached⟩ := located.inTree
  have notRoot := (reached.wellFormed tree.wellFormed enters.inside).ne_zero
  refine ⟨⟨_, .child reached enters.inside⟩, enters.offset, ?_⟩
  have prompt := located.prompt
  have shown := enters.prompt
  rw [if_neg notRoot]
  by_cases isRoot : before.currentDirectoryEntry.startingCluster = 0
  · rw [if_pos isRoot] at shown
    refine ⟨called, fun inName => ?_, shown⟩
    rw [← enters.name] at inName
    exact (tree.names _ _ _ reached enters.inside).1
      ((List.rdropWhile_prefix _ _).subset inName)
  · rw [if_neg isRoot] at prompt shown
    rw [shown]
    exact prompt

/-- Behind a move up as well. -/
theorem LeavesTo.located {before after : Navigator} {path : List (List UInt8)} {parent : UInt16}
    (leaves : LeavesTo volume before after parent) (reached : PathTo volume path parent)
    (notRoot : before.currentDirectoryEntry.startingCluster ≠ 0)
    (located : Located volume before) : Located volume after := by
  have prompt := located.prompt
  rw [if_neg notRoot] at prompt
  obtain ⟨name, plain, shown⟩ := prompt
  refine ⟨⟨path, leaves.cluster ▸ reached⟩, leaves.offset, ?_⟩
  rw [leaves.cluster, leaves.prompt, shown]
  split
  · exact removeRightIncluding_promptOf [] plain
  · exact ⟨name, plain, rfl⟩

/-- In every run of calls with `..` and existing names the program is in the tree. -/
theorem located_of_reached (tree : PlainTree volume) {position : Nat} {navigator : Navigator}
    (reached : (navigation volume).Reached (ExistingName volume) (.start volume position)
      navigator) : Located volume navigator := by
  apply reached.invariant (Located.start volume position)
  intro before call after located existing stepped
  obtain ⟨argument, fuel⟩ := call
  rcases existing with toParent | ⟨entry, inside, noNul, named⟩
  · cases toParent
    by_cases isRoot : before.currentDirectoryEntry.startingCluster = 0
    · obtain ⟨position, rfl⟩ := located.stays tree isRoot stepped
      exact ⟨located.inTree, located.offset, located.prompt⟩
    · obtain ⟨path, toCurrent⟩ := located.inTree
      obtain ⟨above, parent, entry, toParent, inside, same⟩ := toCurrent.above isRoot
      exact (located.leaves tree toParent inside same stepped).located toParent isRoot located
  · cases named
    exact (located.enters tree inside noNul stepped).located tree located

/-! ### There and back -/

/-- The program is where it was, lists the same directory and shows the same prompt. -/
structure Restored (volume : Volume) (before after : Navigator) : Prop where
  offset : after.currentDirectoryOffset = before.currentDirectoryOffset
  prompt : after.currentDirectory = before.currentDirectory
  directory : after.currentDirectoryEntry.startingCluster =
    before.currentDirectoryEntry.startingCluster
  listing : ∃ lines, ∀ navigator, navigator = before ∨ navigator = after →
    ∀ printed, Lists volume navigator printed ↔ printed = lines

/-- In a directory of the tree the commands return. -/
theorem Located.linksEnd {navigator : Navigator} (located : Located volume navigator)
    (tree : PlainTree volume) : LinksEnd volume navigator := by
  by_cases inRoot : navigator.currentDirectoryOffset = volume.rootDirectoryOffset
  · exact .inl inRoot
  · have notRoot := fun isRoot => inRoot ((located.inRoot_iff tree).mpr isRoot)
    obtain ⟨clusters, chain⟩ := located.chain tree notRoot
    obtain ⟨finish, listed⟩ := listFiles_chain chain inRoot (Nat.lt_succ_self _)
    exact listFiles_returns_iff.mp ⟨_, _, listed⟩

/-- The lines that `list_files` prints in a directory of the tree depend on the directory
only. -/
theorem Located.lists {navigator : Navigator} (located : Located volume navigator)
    (tree : PlainTree volume) :
    ∃ lines, ∀ other, Located volume other →
      other.currentDirectoryEntry.startingCluster =
        navigator.currentDirectoryEntry.startingCluster →
      ∀ printed, Lists volume other printed ↔ printed = lines := by
  by_cases isRoot : navigator.currentDirectoryEntry.startingCluster = 0
  · refine ⟨usedLines volume.rootEntries, fun other there same => ?_⟩
    exact lists_root tree.wellFormed.root ((there.inRoot_iff tree).mpr (same.trans isRoot))
  · obtain ⟨clusters, chain⟩ := located.chain tree isRoot
    refine ⟨usedLines (volume.directoryEntries clusters), fun other there same => ?_⟩
    apply lists_chain
    · rw [same]
      exact chain
    · exact fun inRoot => isRoot (same.symm.trans ((there.inRoot_iff tree).mp inRoot))

/-- `..` undoes the move into a sub-directory. -/
theorem EntersChild.restored {before entered after : Navigator} {called : List UInt8} {fuel : Nat}
    (enters : EntersChild volume before entered called) (tree : PlainTree volume)
    (located : Located volume before)
    (ran : changeDirectory volume fuel (some parentName) entered = some after) :
    Restored volume before after := by
  obtain ⟨path, reached⟩ := located.inTree
  have below := enters.located tree located
  have notRoot := (reached.wellFormed tree.wellFormed enters.inside).ne_zero
  have leaves := below.leaves tree reached enters.inside rfl ran
  have back := leaves.located reached notRoot below
  obtain ⟨lines, lists⟩ := located.lists tree
  constructor
  · rw [leaves.offset, located.offset]
    exact Volume.seekOffset_congr leaves.cluster
  · rw [leaves.prompt, enters.prompt]
    by_cases isRoot : before.currentDirectoryEntry.startingCluster = 0
    · have prompt := located.prompt
      rw [if_pos isRoot] at prompt
      rw [if_pos isRoot, if_pos isRoot, prompt]
      apply removeRightIncluding_promptOf []
      intro inName
      rw [← enters.name] at inName
      exact (tree.names _ _ _ reached enters.inside).1
        ((List.rdropWhile_prefix _ _).subset inName)
    · rw [if_neg isRoot, if_neg isRoot]
  · exact leaves.cluster
  · refine ⟨lines, ?_⟩
    rintro navigator (rfl | rfl)
    · exact lists navigator located rfl
    · exact lists navigator back leaves.cluster

/-- In every state that calls with `..` and existing names reach, at any depth of the tree,
`change_directory` with the name of a sub-directory enters one of that name, and `..`
then restores position, listing and prompt. -/
theorem cd_round_trip (volume : Volume) (position : Nat) (tree : PlainTree volume)
    {navigator : Navigator}
    (reached : (navigation volume).Reached (ExistingName volume) (.start volume position)
      navigator)
    {entry : Fat16Entry}
    (inside : volume.Subdirectory navigator.currentDirectoryEntry.startingCluster entry)
    (noNul : 0 ∉ entry.name) :
    (∃ fuel entered, changeDirectory volume fuel (some entry.name) navigator = some entered) ∧
    ∀ fuel entered, changeDirectory volume fuel (some entry.name) navigator = some entered →
      (volume.Subdirectory navigator.currentDirectoryEntry.startingCluster
          entered.currentDirectoryEntry ∧
        entered.currentDirectoryEntry.name = entry.name) ∧
      (∃ fuel back, changeDirectory volume fuel (some parentName) entered = some back) ∧
      ∀ fuel back, changeDirectory volume fuel (some parentName) entered = some back →
        Restored volume navigator back := by
  have located := located_of_reached tree reached
  refine ⟨changeDirectory_of_linksEnd (located.linksEnd tree) _, fun fuel entered ran => ?_⟩
  have enters := located.enters tree inside noNul ran
  have below := enters.located tree located
  exact ⟨⟨enters.inside, enters.name⟩, changeDirectory_of_linksEnd (below.linksEnd tree) _,
    fun fuel back left => enters.restored tree located left⟩

/-! ### The volume with a directory two levels deep -/

/-- Its sub-directories are `/A` and `/A/B`. -/
theorem nested_either {path : List (List UInt8)} {directory : UInt16} {entry : Fat16Entry}
    (reached : PathTo nestedVolume path directory)
    (inside : nestedVolume.Subdirectory directory entry) :
    (entry.startingCluster = 2 ∧ entry.name = [0x41]) ∨
      (entry.startingCluster = 4 ∧ entry.name = [0x42]) := by
  rcases (nested_subdirectory (nested_place reached) inside).1 with ⟨-, top⟩ | ⟨-, bottom⟩
  · exact .inl top
  · exact .inr bottom

theorem nested_plainTree : PlainTree nestedVolume where
  wellFormed := nestedVolume_wellFormed
  names := by
    intro path directory entry reached inside
    have named : entry.name = [0x41] ∨ entry.name = [0x42] :=
      (nested_either reached inside).imp And.right And.right
    refine ⟨(nested_directoryTree.plain path directory entry reached inside).1, ?_, ?_⟩
    all_goals
      intro isDot
      rw [Fat16Entry.name, isDot] at named
      exact absurd named (by decide)
  rootHasNoDotDot := nested_directoryTree.rootHasNoDotDot
  distinct := by
    intro path directory entry reached inside
    unfold Volume.directoryOffset
    rcases nested_either reached inside with ⟨start, -⟩ | ⟨start, -⟩
    all_goals
      rw [start]
      decide

/-- From `/A` to `/A/B` and back. -/
theorem cd_round_trip_nested : ∃ fuel middle more entered,
    changeDirectory nestedVolume fuel (some [0x41]) (.start nestedVolume 0) = some middle ∧
      changeDirectory nestedVolume more (some [0x42]) middle = some entered ∧
      ∃ fuel back, changeDirectory nestedVolume fuel (some parentName) entered = some back ∧
        Restored nestedVolume middle back := by
  obtain ⟨⟨top, topInside, topName, -⟩, bottom, bottomInside, bottomName, -⟩ := nested_held
  obtain ⟨middle, first, atTop⟩ : ∃ middle,
      changeDirectory nestedVolume 0 (some [0x41]) (.start nestedVolume 0) = some middle ∧
        middle.currentDirectoryEntry.startingCluster = 2 :=
    ⟨_, rfl, by decide⟩
  have topNoNul : 0 ∉ top.name := by
    rw [topName]
    decide
  have bottomNoNul : 0 ∉ bottom.name := by
    rw [bottomName]
    decide
  have existing : ExistingName nestedVolume (.start nestedVolume 0) (some [0x41], 0) :=
    .inr ⟨top, topInside, topNoNul, by rw [topName]⟩
  have reached : (navigation nestedVolume).Reached (ExistingName nestedVolume)
      (.start nestedVolume 0) middle := .step .start existing first
  obtain ⟨⟨fuel, entered, ran⟩, restores⟩ :=
    cd_round_trip nestedVolume 0 nested_plainTree reached (atTop ▸ bottomInside) bottomNoNul
  obtain ⟨-, ⟨more, back, left⟩, restored⟩ := restores fuel entered ran
  rw [bottomName] at ran
  exact ⟨0, middle, fuel, entered, first, ran, more, back, left, restored more back left⟩

end Ivos.Fat
