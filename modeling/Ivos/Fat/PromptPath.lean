/-
Module: Ivos.Fat.PromptPath
Purpose: The path of a directory in the tree, and when the string that
  `change_directory` keeps for the prompt is the path of the current directory.
Trusted boundary: none
Main exports: Volume.Subdirectory, PathTo, promptOf, DirectoryTree, NamesCurrent,
  ExistingName, EntersFromRoot, prompt_names_current, nested_prompt_wrong
-/
import Ivos.Fat.Navigation
import Mathlib.Data.List.DropRight

namespace Ivos.Fat

/-! ### Paths in the tree -/

/-- The name without the spaces that fill it up. -/
def Fat16Entry.name (entry : Fat16Entry) : List UInt8 :=
  entry.filename.rdropWhile fun byte => byte = 0x20

/-- What a directory holds, by its starting cluster; 0 is the root. -/
def Volume.Holds (volume : Volume) (directory : UInt16) (entry : Fat16Entry) : Prop :=
  if directory = 0 then entry ∈ volume.rootEntries
  else ∃ clusters, volume.Chain directory.toNat clusters ∧ entry ∈ volume.directoryEntries clusters

/-- The entry of a sub-directory of a directory. -/
structure Volume.Subdirectory (volume : Volume) (directory : UInt16) (entry : Fat16Entry) :
    Prop where
  held : volume.Holds directory entry
  listed : entry.Listed
  isDirectory : entry.isDirectory

/-- The names on the way from the root to a directory. -/
inductive PathTo (volume : Volume) : List (List UInt8) → UInt16 → Prop where
  | root : PathTo volume [] 0
  | child {path : List (List UInt8)} {directory : UInt16} {entry : Fat16Entry}
      (above : PathTo volume path directory) (inside : volume.Subdirectory directory entry) :
      PathTo volume (path ++ [entry.name]) entry.startingCluster

/-- `/root`, then `/` and the name of each directory on the way. -/
def promptOf (path : List (List UInt8)) : List UInt8 :=
  [0x2F, 0x72, 0x6F, 0x6F, 0x74] ++ path.flatMap fun name => 0x2F :: name

/-- A volume whose directories form a tree, with plain names: no `/` in them and no
extension, and no directory of the root called `..`. -/
structure DirectoryTree (volume : Volume) : Prop where
  wellFormed : WellFormedVolume volume
  unique : ∀ first second directory, PathTo volume first directory →
    PathTo volume second directory → first = second
  plain : ∀ path directory entry, PathTo volume path directory →
    volume.Subdirectory directory entry →
      0x2F ∉ entry.filename ∧ entry.ext = List.replicate 3 0x20
  rootHasNoDotDot : ∀ entry ∈ volume.rootEntries, entry.firstByte ≠ 0 → entry.isDirectory →
    entry.filename ≠ dotName 2

/-- The prompt string is the path of the directory that the entry belongs to. -/
def NamesCurrent (volume : Volume) (navigator : Navigator) : Prop :=
  (∃ path, PathTo volume path navigator.currentDirectoryEntry.startingCluster) ∧
    ∀ path, PathTo volume path navigator.currentDirectoryEntry.startingCluster →
      navigator.currentDirectory = promptOf path

/-- The argument `..`. -/
def parentName : List UInt8 := [0x2E, 0x2E]

/-- The call names `..` or, as a C string, a sub-directory of the current directory. -/
def ExistingName (volume : Volume) (navigator : Navigator)
    (call : Option (List UInt8) × Nat) : Prop :=
  call.1 = some parentName ∨
    ∃ entry, volume.Subdirectory navigator.currentDirectoryEntry.startingCluster entry ∧
      0 ∉ entry.name ∧ call.1 = some entry.name

/-- A sub-directory is named in the root only; or else the directory it is named in
is taken for the root, and the root has no directory of that name. -/
def EntersFromRoot (volume : Volume) (navigator : Navigator)
    (call : Option (List UInt8) × Nat) : Prop :=
  ∀ name ∈ call.1, name ≠ parentName →
    navigator.currentDirectoryEntry.startingCluster = 0 ∨
      (navigator.currentDirectoryOffset = volume.rootDirectoryOffset ∧
        ∀ entry ∈ volume.rootEntries, ¬ TakenFor (paddedName name) entry)

variable {volume : Volume}

/-! ### Names -/

theorem length_filename_directory {clusters : List Nat} {entry : Fat16Entry}
    (member : entry ∈ volume.directoryEntries clusters) : entry.filename.length = 8 := by
  obtain ⟨cluster, -, inside⟩ := List.mem_flatMap.mp member
  exact (Image.lengths_of_mem_entriesAt inside).1

theorem Volume.Holds.length_filename {directory : UInt16} {entry : Fat16Entry}
    (held : volume.Holds directory entry) : entry.filename.length = 8 := by
  unfold Volume.Holds at held
  split at held
  · exact (Image.lengths_of_mem_entriesAt held).1
  · obtain ⟨clusters, -, member⟩ := held
    exact length_filename_directory member

theorem Fat16Entry.length_name_le {entry : Fat16Entry} (length : entry.filename.length = 8) :
    entry.name.length ≤ 8 := by
  rw [← length]
  exact (List.rdropWhile_prefix _ _).length_le

/-- Filling up the name gives back the 8 bytes of the entry. -/
theorem Fat16Entry.paddedName_name {entry : Fat16Entry} (length : entry.filename.length = 8) :
    paddedName entry.name = entry.filename := by
  have whole : entry.name ++ entry.filename.rtakeWhile (fun byte => byte = 0x20) =
      entry.filename := List.rdropWhile_append_rtakeWhile
  have spaces : entry.filename.rtakeWhile (fun byte => byte = 0x20) =
      List.replicate (8 - entry.name.length) 0x20 := by
    apply List.eq_replicate_iff.mpr
    constructor
    · have lengths := congrArg List.length whole
      rw [List.length_append] at lengths
      omega
    · intro byte member
      simpa using List.mem_rtakeWhile_imp member
  unfold paddedName
  rw [← spaces, whole]

/-- Without a NUL, `strncmp` over the whole of two arrays compares them. -/
theorem strncmpEq_iff {count : Nat} {first second : List UInt8} (firstLength : first.length = count)
    (secondLength : second.length = count) (noNul : 0 ∉ second) :
    strncmpEq count first second = true ↔ first = second := by
  induction count generalizing first second with
  | zero =>
      rw [List.length_eq_zero_iff.mp firstLength, List.length_eq_zero_iff.mp secondLength]
      simp [strncmpEq]
  | succ count inductionHypothesis =>
      rcases first with _ | ⟨firstByte, firstRest⟩
      · cases firstLength
      rcases second with _ | ⟨secondByte, secondRest⟩
      · cases secondLength
      have rest := inductionHypothesis (Nat.succ.inj firstLength) (Nat.succ.inj secondLength)
        fun member => noNul (List.mem_cons_of_mem _ member)
      have notNul : firstByte = secondByte → firstByte ≠ 0 := by
        rintro rfl rfl
        exact noNul List.mem_cons_self
      simp only [strncmpEq, decide_eq_true_eq, rest, List.cons.injEq]
      constructor
      · rintro ⟨same, isNul | sameRest⟩
        · exact absurd isNul (notNul same)
        · exact ⟨same, sameRest⟩
      · rintro ⟨same, sameRest⟩
        exact ⟨same, .inr sameRest⟩

theorem length_paddedName {name : List UInt8} (short : name.length ≤ 8) :
    (paddedName name).length = 8 := by
  unfold paddedName
  rw [List.length_append, List.length_replicate]
  omega

theorem noNul_paddedName {name : List UInt8} (noNul : 0 ∉ name) : 0 ∉ paddedName name := by
  intro member
  rcases List.mem_append.mp member with inName | inFilling
  · exact noNul inName
  · exact absurd (List.eq_of_mem_replicate inFilling) (by decide)

theorem takenFor_iff {name : List UInt8} (short : name.length ≤ 8) (noNul : 0 ∉ name)
    {entry : Fat16Entry} (length : entry.filename.length = 8) :
    TakenFor (paddedName name) entry ↔
      (entry.firstByte ≠ 0 ∧ entry.isDirectory) ∧ entry.filename = paddedName name := by
  unfold TakenFor
  rw [strncmpEq_iff length (length_paddedName short) (noNul_paddedName noNul)]

/-- A sub-directory without an extension is not called `.` or `..`. -/
theorem Volume.Subdirectory.filename_ne {directory : UInt16} {entry : Fat16Entry}
    (inside : volume.Subdirectory directory entry) (ext : entry.ext = List.replicate 3 0x20) :
    entry.filename ≠ dotName 1 ∧ entry.filename ≠ dotName 2 :=
  ⟨fun isDot => inside.listed.2.1 ⟨isDot, ext⟩, fun isDotDot => inside.listed.2.2 ⟨isDotDot, ext⟩⟩

/-- What the search takes for a sub-directory has its name, and is a sub-directory
too. -/
theorem Volume.Subdirectory.of_taken {directory : UInt16} {entry found : Fat16Entry}
    (inside : volume.Subdirectory directory entry) (noNul : 0 ∉ entry.name)
    {other : UInt16} (held : volume.Holds other found)
    (plain : entry.filename ≠ dotName 1 ∧ entry.filename ≠ dotName 2)
    (taken : TakenFor (paddedName entry.name) found) :
    volume.Subdirectory other found ∧ found.name = entry.name := by
  have length := inside.held.length_filename
  obtain ⟨⟨used, isDirectory⟩, same⟩ :=
    (takenFor_iff (Fat16Entry.length_name_le length) noNul held.length_filename).mp taken
  rw [Fat16Entry.paddedName_name length] at same
  have listed : found.Listed := by
    refine ⟨⟨used, ?_⟩, fun isDot => ?_, fun isDotDot => ?_⟩
    · rw [Fat16Entry.firstByte, same]
      exact inside.listed.1.2
    · exact plain.1 (same ▸ isDot.1)
    · exact plain.2 (same ▸ isDotDot.1)
  refine ⟨⟨held, listed, isDirectory⟩, ?_⟩
  rw [Fat16Entry.name, same, ← Fat16Entry.name]

/-- What the search takes for `..`. -/
theorem takenFor_parentName_iff {found : Fat16Entry} (length : found.filename.length = 8) :
    TakenFor (paddedName parentName) found ↔
      (found.firstByte ≠ 0 ∧ found.isDirectory) ∧ found.filename = dotName 2 := by
  have padded : paddedName parentName = dotName 2 := by decide
  rw [takenFor_iff (by decide) (by decide) length, padded]

/-- An entry in use that is called `..` without being the parent entry is listed. -/
theorem Fat16Entry.listed_of_named {entry : Fat16Entry} (used : entry.firstByte ≠ 0)
    (named : entry.filename = dotName 2) (other : ¬ entry.IsDotDot) : entry.Listed := by
  refine ⟨⟨used, ?_⟩, fun isDot => ?_, other⟩
  · rw [Fat16Entry.firstByte, named]
    decide
  · exact absurd (named.symm.trans isDot.1) (by decide)

/-- A sub-directory is taken for itself. -/
theorem Volume.Subdirectory.taken {directory : UInt16} {entry : Fat16Entry}
    (inside : volume.Subdirectory directory entry) (noNul : 0 ∉ entry.name) :
    TakenFor (paddedName entry.name) entry := by
  have length := inside.held.length_filename
  rw [takenFor_iff (Fat16Entry.length_name_le length) noNul length,
    Fat16Entry.paddedName_name length]
  exact ⟨⟨inside.listed.1.1, inside.isDirectory⟩, rfl⟩

/-! ### The prompt string

The path of the prompt is `/root` and the names below it.  `..` cuts the last name off at its
slash, which is right as long as no name contains one.
-/

@[simp] theorem promptOf_nil : promptOf [] = [0x2F, 0x72, 0x6F, 0x6F, 0x74] := rfl

theorem promptOf_snoc (path : List (List UInt8)) (name : List UInt8) :
    promptOf (path ++ [name]) = promptOf path ++ 0x2F :: name := by
  simp [promptOf]

/-- There is room for two names of eight bytes in `current_directory`. -/
theorem appendName_promptOf {path : List (List UInt8)} {name : List UInt8}
    (room : (promptOf path).length + name.length < 1023) :
    appendName (promptOf path) name = promptOf (path ++ [name]) := by
  rw [promptOf_snoc, appendName, List.take_of_length_le]
  rw [List.length_cons]
  omega

/-- Cutting at the last `/` takes off the last name. -/
theorem removeRightIncluding_promptOf (path : List (List UInt8)) {name : List UInt8}
    (plain : 0x2F ∉ name) :
    removeRightIncluding (promptOf (path ++ [name])) 0x2F = promptOf path := by
  have cut : ((promptOf (path ++ [name])).reverse.dropWhile fun byte => byte ≠ 0x2F) =
      0x2F :: (promptOf path).reverse := by
    rw [promptOf_snoc, List.reverse_append, List.reverse_cons, List.append_assoc,
      List.dropWhile_append_of_pos]
    · simp
    · intro byte member
      have other : byte ≠ 0x2F := fun same => plain (same ▸ List.mem_reverse.mp member)
      simpa using other
  unfold removeRightIncluding
  rw [cut]
  exact List.reverse_reverse _

/-- The names of a path can be counted in its prompt. -/
theorem length_promptOf (path : List (List UInt8)) :
    (promptOf path).length = 5 + (path.map fun name => name.length + 1).sum := by
  rw [promptOf, List.length_append, List.length_flatMap]
  simp only [List.length_cons, List.length_nil]

/-- The prompt of two names is that of neither of them. -/
theorem promptOf_pair_ne (first second : List UInt8) :
    promptOf [first, second] ≠ promptOf [first] ∧ promptOf [first, second] ≠ promptOf [second] := by
  constructor
  all_goals
    intro same
    have lengths := congrArg List.length same
    simp only [length_promptOf, List.map_cons, List.map_nil, List.sum_cons, List.sum_nil] at lengths
    omega

/-! ### One call

A call that finds nothing changes the position of the stream only.  One that enters a
directory moves the path along, except where it goes down from a directory other than the
root: there the source tests the value it has just assigned against itself.
-/

/-- What a call leaves behind its search. -/
def Arrives (volume : Volume) (inRoot : Bool) (name : List UInt8) (navigator after : Navigator)
    (result : Option Fat16Entry) : Prop :=
  ∃ position, after =
    match result with
    | none => { navigator with position := position }
    | some entry => enterDirectory volume inRoot name entry { navigator with position := position }

/-- A call with a name of at most eight bytes searches the root or the current
directory, whichever the offset says. -/
theorem changeDirectory_spec (readable : volume.RootReadable) {fuel : Nat} {name : List UInt8}
    {navigator after : Navigator} (short : name.length ≤ 8)
    (ran : changeDirectory volume fuel (some name) navigator = some after) :
    (navigator.currentDirectoryOffset = volume.rootDirectoryOffset ∧
        ∃ result, Searched (paddedName name) volume.rootEntries result ∧
          Arrives volume true name navigator after result) ∨
      (navigator.currentDirectoryOffset ≠ volume.rootDirectoryOffset ∧
        ∃ result, (∀ clusters,
            volume.Chain navigator.currentDirectoryEntry.startingCluster.toNat clusters →
              Searched (paddedName name) (volume.directoryEntries clusters) result) ∧
          Arrives volume false name navigator after result) := by
  unfold changeDirectory at ran
  dsimp only at ran
  rw [if_neg (Nat.not_lt.mpr short)] at ran
  obtain ⟨⟨result, position⟩, searched, moved⟩ := Option.map_eq_some_iff.mp ran
  have arrives : Arrives volume
      (navigator.currentDirectoryOffset == volume.rootDirectoryOffset) name navigator after
        result := by
    refine ⟨position, ?_⟩
    rw [← moved]
    cases result with
    | none => rfl
    | some entry => rfl
  by_cases inRoot : navigator.currentDirectoryOffset = volume.rootDirectoryOffset
  · rw [beq_iff_eq.mpr inRoot] at searched arrives
    rw [inRoot] at searched
    exact .inl ⟨inRoot, result, findDirectory_root readable searched, arrives⟩
  · rw [beq_eq_false_iff_ne.mpr inRoot] at searched arrives
    exact .inr ⟨inRoot, result, fun clusters chain => findDirectory_chain chain searched, arrives⟩

/-- Where the program can be as long as it enters sub-directories from the root
only: in the root, or one level below it. -/
inductive OneLevel (volume : Volume) (navigator : Navigator) : Prop where
  | root (cluster : navigator.currentDirectoryEntry.startingCluster = 0)
      (offset : navigator.currentDirectoryOffset = volume.rootDirectoryOffset)
      (prompt : navigator.currentDirectory = promptOf [])
  | top (inside : volume.Subdirectory 0 navigator.currentDirectoryEntry)
      (prompt : navigator.currentDirectory = promptOf [navigator.currentDirectoryEntry.name])

theorem Volume.Holds.of_root {entry : Fat16Entry} (member : entry ∈ volume.rootEntries) :
    volume.Holds 0 entry := by
  unfold Volume.Holds
  rw [if_pos rfl]
  exact member

theorem Volume.Holds.of_chain {directory : UInt16} (notRoot : directory ≠ 0)
    {clusters : List Nat} (chain : volume.Chain directory.toNat clusters) {entry : Fat16Entry}
    (member : entry ∈ volume.directoryEntries clusters) : volume.Holds directory entry := by
  unfold Volume.Holds
  rw [if_neg notRoot]
  exact ⟨clusters, chain, member⟩

/-- The tree below a directory of the root. -/
theorem DirectoryTree.top (tree : DirectoryTree volume) {entry : Fat16Entry}
    (inside : volume.Subdirectory 0 entry) :
    WellFormedDirectory volume entry.startingCluster 0 := by
  have member := inside.held
  unfold Volume.Holds at member
  rw [if_pos rfl] at member
  exact tree.wellFormed.subdirectories entry member inside.listed inside.isDirectory

theorem PathTo.top {entry : Fat16Entry} (inside : volume.Subdirectory 0 entry) :
    PathTo volume [entry.name] entry.startingCluster :=
  .child .root inside

theorem OneLevel.namesCurrent (tree : DirectoryTree volume) {navigator : Navigator}
    (level : OneLevel volume navigator) : NamesCurrent volume navigator := by
  cases level with
  | root cluster offset prompt =>
      unfold NamesCurrent
      rw [cluster, prompt]
      exact ⟨⟨[], .root⟩, fun path toRoot => by rw [tree.unique _ _ _ .root toRoot]⟩
  | top inside prompt =>
      unfold NamesCurrent
      rw [prompt]
      exact ⟨⟨_, .top inside⟩, fun path toTop => by rw [tree.unique _ _ _ (.top inside) toTop]⟩

theorem OneLevel.of_unmoved {navigator after : Navigator} (level : OneLevel volume navigator)
    {inRoot : Bool} {name : List UInt8}
    (arrives : Arrives volume inRoot name navigator after none) : OneLevel volume after := by
  obtain ⟨position, rfl⟩ := arrives
  cases level with
  | root cluster offset prompt => exact .root cluster offset prompt
  | top inside prompt => exact .top inside prompt

/-- `..` stays in the root, and leads to it from a directory of the root. -/
theorem OneLevel.parent (tree : DirectoryTree volume) {fuel : Nat} {navigator after : Navigator}
    (level : OneLevel volume navigator)
    (ran : changeDirectory volume fuel (some parentName) navigator = some after) :
    OneLevel volume after := by
  rcases changeDirectory_spec tree.wellFormed.root (by decide) ran with
    ⟨-, result, searched, arrives⟩ | ⟨elsewhere, result, searched, arrives⟩
  · cases result with
    | none => exact level.of_unmoved arrives
    | some found =>
        obtain ⟨member, taken⟩ := searched
        obtain ⟨⟨used, directory⟩, named⟩ :=
          (takenFor_parentName_iff (Image.lengths_of_mem_entriesAt member).1).mp taken
        exact absurd named (tree.rootHasNoDotDot found member used directory)
  · cases result with
    | none => exact level.of_unmoved arrives
    | some found =>
        cases level with
        | root _ offset _ => exact absurd offset elsewhere
        | top inside prompt =>
            have below := tree.top inside
            obtain ⟨clusters, chain⟩ := below.chain
            obtain ⟨member, taken⟩ := searched clusters chain
            obtain ⟨⟨used, directory⟩, named⟩ :=
              (takenFor_parentName_iff (length_filename_directory member)).mp taken
            -- An entry called `..` with an extension would be a sub-directory with one.
            have dotDot : found.IsDotDot := by
              by_contra other
              have listed := found.listed_of_named used named other
              have held := Volume.Holds.of_chain below.ne_zero chain member
              exact other ⟨named, (tree.plain _ _ found (.top inside) ⟨held, listed, directory⟩).2⟩
            have toRoot : found.startingCluster = 0 := by
              cases below with
              | intro ownChain _ _ _ dotDots _ =>
                  obtain rfl := ownChain.unique chain
                  exact (dotDots found member dotDot).2
            obtain ⟨position, rfl⟩ := arrives
            have plain := (tree.plain _ _ _ .root inside).1
            have plainName : 0x2F ∉ navigator.currentDirectoryEntry.name := fun within =>
              plain ((List.rdropWhile_prefix _ _).subset within)
            have cut := removeRightIncluding_promptOf [] plainName
            rw [List.nil_append] at cut
            apply OneLevel.root
            · simp [enterDirectory, toRoot]
            · simp [enterDirectory, toRoot]
            · simp only [enterDirectory, toRoot, prompt, Bool.false_eq_true, if_false, if_true]
              exact cut

/-- What a named sub-directory is found as. -/
theorem OneLevel.named (tree : DirectoryTree volume) {fuel : Nat} {navigator after : Navigator}
    {entry : Fat16Entry} (level : OneLevel volume navigator)
    (inside : volume.Subdirectory navigator.currentDirectoryEntry.startingCluster entry)
    (noNul : 0 ∉ entry.name)
    (ran : changeDirectory volume fuel (some entry.name) navigator = some after)
    (enters : EntersFromRoot volume navigator (some entry.name, fuel))
    (notParent : entry.name ≠ parentName) : OneLevel volume after := by
  have short := Fat16Entry.length_name_le inside.held.length_filename
  have condition := enters entry.name rfl notParent
  cases level with
  | root cluster offset prompt =>
      rcases changeDirectory_spec tree.wellFormed.root short ran with
        ⟨-, result, searched, arrives⟩ | ⟨elsewhere, -⟩
      · cases result with
        | none => exact (OneLevel.root cluster offset prompt).of_unmoved arrives
        | some found =>
            obtain ⟨member, taken⟩ := searched
            rw [cluster] at inside
            have ext := (tree.plain _ _ _ .root inside).2
            obtain ⟨isIn, sameName⟩ := inside.of_taken noNul (.of_root member)
              (inside.filename_ne ext) taken
            obtain ⟨position, rfl⟩ := arrives
            apply OneLevel.top isIn
            show appendName navigator.currentDirectory entry.name = promptOf [found.name]
            rw [prompt, sameName]
            apply appendName_promptOf
            rw [length_promptOf, List.map_nil, List.sum_nil]
            omega
      · exact absurd offset elsewhere
  | top isIn prompt =>
      rcases condition with cluster | ⟨offset, missing⟩
      · exact absurd cluster (tree.top isIn).ne_zero
      · rcases changeDirectory_spec tree.wellFormed.root short ran with
          ⟨-, result, searched, arrives⟩ | ⟨elsewhere, -⟩
        · cases result with
          | none => exact (OneLevel.top isIn prompt).of_unmoved arrives
          | some found => exact absurd searched.2 (missing found searched.1)
        · exact absurd offset elsewhere

/-- A directory of the root that is entered with its name behind another one is misnamed. -/
theorem not_namesCurrent_behind {navigator : Navigator} {found : Fat16Entry}
    (isTop : volume.Subdirectory 0 found) {above : List UInt8} (aboveShort : above.length ≤ 8)
    (prompt : navigator.currentDirectory = promptOf [above]) :
    ¬ NamesCurrent volume (enterDirectory volume true found.name found navigator) := by
  intro names
  have same : appendName navigator.currentDirectory found.name = promptOf [found.name] :=
    names.2 _ (.top isTop)
  have short := Fat16Entry.length_name_le isTop.held.length_filename
  have room : (promptOf [above]).length + found.name.length < 1023 := by
    rw [length_promptOf, List.map_singleton, List.sum_singleton]
    omega
  rw [prompt, appendName_promptOf room] at same
  exact (promptOf_pair_ne _ _).2 same

/-- A directory below one of the root is misnamed, since it is entered without its name. -/
theorem not_namesCurrent_below {navigator : Navigator} {top found : Fat16Entry}
    (isIn : volume.Subdirectory 0 top) (isBelow : volume.Subdirectory top.startingCluster found)
    (notZero : found.startingCluster ≠ 0)
    (prompt : navigator.currentDirectory = promptOf [top.name]) (name : List UInt8) :
    ¬ NamesCurrent volume (enterDirectory volume false name found navigator) := by
  intro names
  have unchanged : (enterDirectory volume false name found navigator).currentDirectory =
      navigator.currentDirectory := by
    simp [enterDirectory, notZero]
  have entered : (enterDirectory volume false name found navigator).currentDirectoryEntry =
      found := (enterDirectory_entry ..).1
  have same := names.2 ([top.name] ++ [found.name])
    (by rw [entered]; exact .child (.top isIn) isBelow)
  rw [unchanged, prompt] at same
  exact (promptOf_pair_ne _ _).1 same.symm

/-- A sub-directory named elsewhere is entered without its name, or entered from a
directory it is not in. -/
theorem OneLevel.misnamed (tree : DirectoryTree volume) {fuel : Nat} {navigator after : Navigator}
    {entry : Fat16Entry} (level : OneLevel volume navigator)
    (inside : volume.Subdirectory navigator.currentDirectoryEntry.startingCluster entry)
    (noNul : 0 ∉ entry.name)
    (ran : changeDirectory volume fuel (some entry.name) navigator = some after)
    (strays : ¬ EntersFromRoot volume navigator (some entry.name, fuel)) :
    ¬ NamesCurrent volume after := by
  have short := Fat16Entry.length_name_le inside.held.length_filename
  unfold EntersFromRoot at strays
  push Not at strays
  obtain ⟨name, given, -, notRoot, rootHolds⟩ := strays
  obtain rfl := Option.some.inj given
  cases level with
  | root cluster => exact absurd cluster notRoot
  | top isIn prompt =>
      have ext := (tree.plain _ _ _ (.top isIn) inside).2
      have below := tree.top isIn
      have topShort := Fat16Entry.length_name_le isIn.held.length_filename
      rcases changeDirectory_spec tree.wellFormed.root short ran with
        ⟨offset, result, searched, arrives⟩ | ⟨elsewhere, result, searched, arrives⟩
      · cases result with
        | none =>
            obtain ⟨candidate, member, taken⟩ := rootHolds offset
            exact absurd taken (searched candidate member)
        | some found =>
            obtain ⟨isTop, sameName⟩ := inside.of_taken noNul (.of_root searched.1)
              (inside.filename_ne ext) searched.2
            obtain ⟨position, rfl⟩ := arrives
            rw [← sameName]
            apply not_namesCurrent_behind isTop topShort
            exact prompt
      · obtain ⟨clusters, chain⟩ := below.chain
        have found := searched clusters chain
        cases result with
        | none =>
            have held := inside.held
            unfold Volume.Holds at held
            rw [if_neg below.ne_zero] at held
            obtain ⟨others, otherChain, member⟩ := held
            obtain rfl := chain.unique otherChain
            exact absurd (inside.taken noNul) (found entry member)
        | some found' =>
            obtain ⟨member, taken⟩ := found
            obtain ⟨isBelow, -⟩ :=
              inside.of_taken noNul (.of_chain below.ne_zero chain member) (inside.filename_ne ext)
                taken
            have notZero :=
              (below.child chain member isBelow.listed isBelow.isDirectory).ne_zero
            obtain ⟨position, rfl⟩ := arrives
            apply not_namesCurrent_below isIn isBelow notZero
            exact prompt

/-! ### Runs -/

/-- What a call of a run may be for the prompt to stay right. -/
def NamedFromRoot (volume : Volume) (navigator : Navigator)
    (call : Option (List UInt8) × Nat) : Prop :=
  ExistingName volume navigator call ∧ EntersFromRoot volume navigator call

theorem OneLevel.start (volume : Volume) (position : Nat) :
    OneLevel volume (.start volume position) :=
  .root rfl rfl rfl

theorem oneLevel_of_reached (tree : DirectoryTree volume) {position : Nat} {navigator : Navigator}
    (reached : (navigation volume).Reached (NamedFromRoot volume) (.start volume position)
      navigator) : OneLevel volume navigator := by
  apply reached.invariant (OneLevel.start volume position)
  intro before call after level permitted stepped
  obtain ⟨argument, fuel⟩ := call
  by_cases upwards : argument = some parentName
  · subst upwards
    exact level.parent tree stepped
  · rcases permitted.1 with toParent | ⟨entry, inside, noNul, named⟩
    · exact absurd toParent upwards
    · cases named
      exact level.named tree inside noNul stepped permitted.2
        fun same => upwards (congrArg some same)

/-- In every run of calls with `..` and existing names that enters sub-directories
from the root only, the prompt names the current directory; and the first other call
puts an end to that. -/
theorem prompt_names_current (volume : Volume) (position : Nat) (tree : DirectoryTree volume)
    {navigator : Navigator}
    (reached : (navigation volume).Reached (NamedFromRoot volume) (.start volume position)
      navigator) :
    NamesCurrent volume navigator ∧
      ∀ call after, ExistingName volume navigator call →
        (navigation volume).step navigator call = some after →
          (NamesCurrent volume after ↔ EntersFromRoot volume navigator call) := by
  refine ⟨(oneLevel_of_reached tree reached).namesCurrent tree, ?_⟩
  intro call after existing stepped
  constructor
  · intro names
    by_contra strays
    obtain ⟨argument, fuel⟩ := call
    rcases existing with toParent | ⟨entry, inside, noNul, named⟩
    · cases toParent
      exact strays fun name given other => absurd (Option.some.inj given).symm other
    · cases named
      exact (oneLevel_of_reached tree reached).misnamed tree inside noNul stepped strays names
  · intro enters
    exact (oneLevel_of_reached tree (reached.step ⟨existing, enters⟩ stepped)).namesCurrent tree

/-! ### A volume with a directory two levels deep -/

theorem nested_root : ∀ entry ∈ nestedVolume.rootEntries, entry.Listed → entry.isDirectory →
    entry.startingCluster = 2 ∧ entry.name = [0x41] ∧ 0x2F ∉ entry.filename ∧
      entry.ext = List.replicate 3 0x20 := by
  decide

theorem nested_top : ∀ entry ∈ nestedVolume.directoryEntries [2], entry.Listed →
    entry.isDirectory → entry.startingCluster = 4 ∧ entry.name = [0x42] ∧
      0x2F ∉ entry.filename ∧ entry.ext = List.replicate 3 0x20 := by
  decide

theorem nested_bottom : ∀ entry ∈ nestedVolume.directoryEntries [4], ¬ entry.Listed := by
  decide

/-- The sub-directories of the three directories. -/
theorem nested_subdirectory {directory : UInt16} {entry : Fat16Entry}
    (place : directory = 0 ∨ directory = 2 ∨ directory = 4)
    (inside : nestedVolume.Subdirectory directory entry) :
    ((directory = 0 ∧ entry.startingCluster = 2 ∧ entry.name = [0x41]) ∨
        (directory = 2 ∧ entry.startingCluster = 4 ∧ entry.name = [0x42])) ∧
      0x2F ∉ entry.filename ∧ entry.ext = List.replicate 3 0x20 := by
  have held := inside.held
  unfold Volume.Holds at held
  rcases place with rfl | rfl | rfl
  · rw [if_pos rfl] at held
    obtain ⟨cluster, name, plain⟩ := nested_root entry held inside.listed inside.isDirectory
    exact ⟨.inl ⟨rfl, cluster, name⟩, plain⟩
  · rw [if_neg (by decide)] at held
    obtain ⟨clusters, chain, member⟩ := held
    obtain rfl := chain.unique nestedVolume_chain.1
    obtain ⟨cluster, name, plain⟩ := nested_top entry member inside.listed inside.isDirectory
    exact ⟨.inr ⟨rfl, cluster, name⟩, plain⟩
  · rw [if_neg (by decide)] at held
    obtain ⟨clusters, chain, member⟩ := held
    obtain rfl := chain.unique nestedVolume_chain.2
    exact absurd inside.listed (nested_bottom entry member)

theorem nested_paths {path : List (List UInt8)} {directory : UInt16}
    (reached : PathTo nestedVolume path directory) :
    (path = [] ∧ directory = 0) ∨ (path = [[0x41]] ∧ directory = 2) ∨
      (path = [[0x41], [0x42]] ∧ directory = 4) := by
  induction reached with
  | root => exact .inl ⟨rfl, rfl⟩
  | child above inside inductionHypothesis =>
      rcases inductionHypothesis with ⟨rfl, rfl⟩ | ⟨rfl, rfl⟩ | ⟨rfl, rfl⟩
      · obtain ⟨⟨-, cluster, name⟩ | ⟨impossible, -⟩, -⟩ :=
          nested_subdirectory (.inl rfl) inside
        · exact .inr (.inl ⟨by rw [name]; rfl, cluster⟩)
        · exact absurd impossible (by decide)
      · obtain ⟨⟨impossible, -⟩ | ⟨-, cluster, name⟩, -⟩ :=
          nested_subdirectory (.inr (.inl rfl)) inside
        · exact absurd impossible (by decide)
        · exact .inr (.inr ⟨by rw [name]; rfl, cluster⟩)
      · obtain ⟨⟨impossible, -⟩ | ⟨impossible, -⟩, -⟩ :=
          nested_subdirectory (.inr (.inr rfl)) inside
        · exact absurd impossible (by decide)
        · exact absurd impossible (by decide)

theorem nested_place {path : List (List UInt8)} {directory : UInt16}
    (reached : PathTo nestedVolume path directory) :
    directory = 0 ∨ directory = 2 ∨ directory = 4 := by
  rcases nested_paths reached with ⟨-, place⟩ | ⟨-, place⟩ | ⟨-, place⟩
  · exact .inl place
  · exact .inr (.inl place)
  · exact .inr (.inr place)

theorem nested_directoryTree : DirectoryTree nestedVolume where
  wellFormed := nestedVolume_wellFormed
  unique := by
    intro first second directory one two
    rcases nested_paths one with ⟨rfl, rfl⟩ | ⟨rfl, rfl⟩ | ⟨rfl, rfl⟩ <;>
      rcases nested_paths two with ⟨rfl, same⟩ | ⟨rfl, same⟩ | ⟨rfl, same⟩ <;>
        first | rfl | exact absurd same (by decide)
  plain := by
    intro path directory entry reached inside
    exact (nested_subdirectory (nested_place reached) inside).2
  rootHasNoDotDot := by decide

/-- The two sub-directories, from the root down. -/
theorem nested_held :
    (∃ entry, nestedVolume.Subdirectory 0 entry ∧ entry.name = [0x41] ∧
        entry.startingCluster = 2) ∧
      ∃ entry, nestedVolume.Subdirectory 2 entry ∧ entry.name = [0x42] ∧
        entry.startingCluster = 4 := by
  have top : ∃ entry ∈ nestedVolume.rootEntries, (entry.Listed ∧ entry.isDirectory) ∧
      entry.name = [0x41] ∧ entry.startingCluster = 2 := by decide
  have bottom : ∃ entry ∈ nestedVolume.directoryEntries [2], (entry.Listed ∧
      entry.isDirectory) ∧ entry.name = [0x42] ∧ entry.startingCluster = 4 := by decide
  constructor
  · obtain ⟨entry, member, ⟨listed, isDirectory⟩, named⟩ := top
    exact ⟨entry, ⟨.of_root member, listed, isDirectory⟩, named⟩
  · obtain ⟨entry, member, ⟨listed, isDirectory⟩, named⟩ := bottom
    exact ⟨entry, ⟨.of_chain (by decide) nestedVolume_chain.1 member, listed, isDirectory⟩, named⟩

/-- One level down, the prompt is `/root/A`. -/
theorem prompt_names_current_top : ∃ navigator,
    (navigation nestedVolume).Reached (NamedFromRoot nestedVolume) (.start nestedVolume 0)
      navigator ∧
    navigator.currentDirectory = promptOf [[0x41]] ∧ NamesCurrent nestedVolume navigator := by
  obtain ⟨⟨entry, inside, name, -⟩, -⟩ := nested_held
  obtain ⟨after, stepped, prompt⟩ : ∃ after,
      (navigation nestedVolume).step (.start nestedVolume 0) (some [0x41], 0) = some after ∧
        after.currentDirectory = promptOf [[0x41]] :=
    ⟨_, rfl, by decide⟩
  have reached : (navigation nestedVolume).Reached (NamedFromRoot nestedVolume)
      (.start nestedVolume 0) after := by
    refine .step .start ⟨.inr ⟨entry, inside, ?_, by rw [name]⟩, fun _ _ _ => .inl rfl⟩ stepped
    rw [name]
    decide
  exact ⟨after, reached, prompt,
    (prompt_names_current nestedVolume 0 nested_directoryTree reached).1⟩

/-- Two levels down, in `/A/B`, the prompt is still `/root/A`. -/
theorem nested_prompt_wrong :
    ¬ ∀ (image : Image) (uninitialised : Bytes) (position : Nat) (navigator : Navigator),
      DirectoryTree (mount image uninitialised) →
        (navigation (mount image uninitialised)).Reached
          (ExistingName (mount image uninitialised))
          (.start (mount image uninitialised) position) navigator →
            NamesCurrent (mount image uninitialised) navigator := by
  intro claimed
  obtain ⟨⟨top, topInside, topName, topCluster⟩, bottom, bottomInside, bottomName,
    bottomCluster⟩ := nested_held
  obtain ⟨middle, first, atTop⟩ : ∃ middle,
      (navigation nestedVolume).step (.start nestedVolume 0) (some [0x41], 0) = some middle ∧
        middle.currentDirectoryEntry.startingCluster = 2 ∧
        ((navigation nestedVolume).step middle (some [0x42], 2)).any (fun last =>
          last.currentDirectoryEntry.startingCluster = 4 ∧
            last.currentDirectory = promptOf [[0x41]]) = true :=
    ⟨_, rfl, by decide⟩
  obtain ⟨atTop, entered⟩ := atTop
  rw [Option.any_eq_true_iff_get] at entered
  obtain ⟨isSome, entered⟩ := entered
  obtain ⟨atBottom, prompt⟩ := of_decide_eq_true entered
  have second := (Option.some_get isSome).symm
  have reached : (navigation nestedVolume).Reached (ExistingName nestedVolume)
      (.start nestedVolume 0) (Option.get _ isSome) := by
    refine .step (.step .start (.inr ⟨top, topInside, ?_, by rw [topName]⟩) first)
      (.inr ⟨bottom, atTop ▸ bottomInside, ?_, by rw [bottomName]⟩) second
    · rw [topName]
      decide
    · rw [bottomName]
      decide
  have names : NamesCurrent nestedVolume _ :=
    claimed _ _ 0 _ nested_directoryTree reached
  have way : PathTo nestedVolume ([[0x41]] ++ [[0x42]]) 4 := by
    have above : PathTo nestedVolume [[0x41]] 2 := by
      simpa only [topName, topCluster] using PathTo.top topInside
    simpa only [bottomName, bottomCluster] using above.child bottomInside
  rw [← atBottom] at way
  have same := names.2 _ way
  rw [prompt] at same
  exact absurd same (by decide)

end Ivos.Fat
