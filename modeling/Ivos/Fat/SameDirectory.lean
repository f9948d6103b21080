/-
Module: Ivos.Fat.SameDirectory
Purpose: Whether `list_files`, `change_directory` and `read` see the same directory, with
  the division by the sector size that they make and the variables that they do not set.
Trusted boundary: none
Main exports: scan, listTrace, changeTrace, readTrace, listFilesRun,
  changeDirectoryRun, SeesSame, firstRead, SearchesInside, sees_same_iff,
  zero_sector_size_traps
-/
import Ivos.Fat.PromptPath
import Ivos.Fat.UnsetLinks
import Mathlib.Data.List.Find

namespace Ivos.Fat

/-! ### What the commands examine

Each command has a variable `entry` of its own, and each call of `get_next_cluster` a
variable `next`.  None of them is initialised and no result of `fread` is looked at, so
that a read that the end of the image cuts off leaves bytes that nothing has set.  What
they hold is given to each command separately.
-/

section Commands

variable {State Result : Type} (volume : Volume)

/-- The loops over the current directory, over the root or along a chain, with the entries
that they read. -/
def scan (body : Nat → Fat16Entry → Nat → State → Option (Flow State Result)) (unset : Unset)
    (fuel : Nat) (navigator : Navigator) (state : State) : Trace State Result :=
  let position := fseek navigator.currentDirectoryOffset navigator.position
  if navigator.currentDirectoryOffset = volume.rootDirectoryOffset then
    let (entries, outcome) := forTrace volume body volume.bs.rootDirEntries.toNat 0
      unset.held position state
    ⟨[], entries, outcome.map Prod.fst⟩
  else
    walkOr volume unset.next body fuel 0 navigator.currentDirectoryEntry.startingCluster.toNat
      unset.held position state

/-- `bs.root_dir_entries * 32 / bs.sector_size` traps when the sector size is 0: nothing
behind it is run. -/
def dividing (behind : Trace State Result) : Trace State Result :=
  if volume.bs.sectorSize = 0 then ⟨[], [], none⟩ else behind

/-- What `list_files` examines.  In the root it returns before it divides. -/
def listTrace (unset : Unset) (fuel : Nat) (navigator : Navigator) :
    Trace (List EntryLine) Empty :=
  if navigator.currentDirectoryOffset = volume.rootDirectoryOffset then
    scan volume listTurn unset fuel navigator []
  else
    dividing volume (scan volume listTurn unset fuel navigator [])

/-- What `change_directory` examines when its argument is not too long.  It divides in
every directory. -/
def changeTrace (unset : Unset) (fuel : Nat) (newDirectory : List UInt8) (navigator : Navigator) :
    Trace Unit Fat16Entry :=
  dividing volume
    (scan volume (directoryTurn (paddedName newDirectory)) unset fuel navigator ())

/-- What the search of `read` examines.  It divides in every directory. -/
def readTrace (frame : Frame) (unset : Unset) (fuel : Nat) (key : List UInt8)
    (navigator : Navigator) : Trace Unit Fat16Entry :=
  dividing volume (scan volume (selectTurn (Matches frame key)) unset fuel navigator ())

/-- `list_files`: the lines printed and the position left. -/
def listFilesRun (unset : Unset) (fuel : Nat) (navigator : Navigator) :
    Option (List EntryLine × Nat) :=
  match (listTrace volume unset fuel navigator).outcome with
  | some (.next lines position) => some (lines, position)
  | _ => none

/-- `change_directory`; `none` as the argument is a null pointer. -/
def changeDirectoryRun (unset : Unset) (fuel : Nat) (newDirectory : Option (List UInt8))
    (navigator : Navigator) : Option Navigator :=
  match newDirectory with
  | none => some navigator
  | some newDirectory =>
      if newDirectory.length > 8 then some navigator
      else
        (changeTrace volume unset fuel newDirectory navigator).outcome.map fun flow =>
          let searched := { navigator with position := flow.position }
          match flow.selected with
          | none => searched
          | some entry =>
              enterDirectory volume
                (navigator.currentDirectoryOffset == volume.rootDirectoryOffset) newDirectory entry
                searched

/-- Where the walk through the current directory reads its first entry, if it reads one. -/
def firstRead (navigator : Navigator) : Option Nat :=
  let position := fseek navigator.currentDirectoryOffset navigator.position
  let cluster := navigator.currentDirectoryEntry.startingCluster.toNat
  if navigator.currentDirectoryOffset = volume.rootDirectoryOffset then
    if volume.bs.rootDirEntries.toNat = 0 then none else some position
  else if isEndOfChain cluster ∨ volume.entriesPerCluster = 0 then none
  else some (fseek (volume.clusterOffset cluster) position)

/-- That entry lies inside the image, so that the read sets the whole variable. -/
def FirstEntryInside (navigator : Navigator) : Prop :=
  ∀ position ∈ firstRead volume navigator, position + entrySize ≤ volume.image.size

instance (navigator : Navigator) : Decidable (FirstEntryInside volume navigator) :=
  inferInstanceAs (Decidable (∀ position ∈ firstRead volume navigator, _))

/-- The search along the current directory meets an entry that is taken, or the end of the
chain, and the FAT entries that it follows lie inside the image.  In the root it follows
none. -/
def SearchInside (navigator : Navigator) (taken : Fat16Entry → Prop) : Prop :=
  navigator.currentDirectoryOffset ≠ volume.rootDirectoryOffset → ∀ held,
    LinksDelivered volume taken navigator.currentDirectoryEntry.startingCluster.toNat held
      (fseek navigator.currentDirectoryOffset navigator.position)

/-- So does every search for a directory or a file. -/
structure SearchesInside (frame : Frame) (navigator : Navigator) : Prop where
  change : ∀ newDirectory, newDirectory.length ≤ 8 → 0 ∉ newDirectory →
    SearchInside volume navigator (TakenFor (paddedName newDirectory))
  read : ∀ filename key, namecmp filename = some key →
    SearchInside volume navigator (Matches frame key)

end Commands

/-- An entry that `list_files` prints, with the attribute bit 0x10 and the name bytes of
the padded argument. -/
def PrintedDirectory (newDirectory : List UInt8) (entry : Fat16Entry) : Prop :=
  entry.firstByte ≠ 0 ∧ entry.attributes &&& 0x10 ≠ 0 ∧ entry.filename = paddedName newDirectory

instance (newDirectory : List UInt8) : DecidablePred (PrintedDirectory newDirectory) :=
  fun _ => inferInstanceAs (Decidable (_ ∧ _))

/-- The commands see the directory that `list_files` walks, whatever their variables hold
that are not set.  A name is a C string of at most 8 characters. -/
structure SeesSame (volume : Volume) (frame : Frame) (navigator : Navigator)
    (walked : List Fat16Entry) (lines : List EntryLine) : Prop where
  prints : lines = usedLines walked
  change : ∀ unset fuel newDirectory, newDirectory.length ≤ 8 → 0 ∉ newDirectory →
    (changeTrace volume unset fuel newDirectory navigator).entries <+: walked
  read : ∀ unset fuel filename key, namecmp filename = some key →
    (readTrace volume frame unset fuel key navigator).entries <+: walked
  returns : ∀ unset newDirectory, newDirectory.length ≤ 8 → 0 ∉ newDirectory →
    ∃ fuel after, changeDirectoryRun volume unset fuel (some newDirectory) navigator = some after
  /-- The first such entry is entered; without one only the stream is moved. -/
  enters : ∀ unset newDirectory, newDirectory.length ≤ 8 → 0 ∉ newDirectory → ∀ fuel after,
    changeDirectoryRun volume unset fuel (some newDirectory) navigator = some after →
      Arrives volume (navigator.currentDirectoryOffset == volume.rootDirectoryOffset) newDirectory
        navigator after (walked.find? (PrintedDirectory newDirectory))

/-! ### What is read and what is printed -/

section Entries

variable {volume : Volume} {State Result : Type}

/-- What a `for` loop reads has names of eight bytes, inside the image or not. -/
theorem forTrace_lengths
    (body : Nat → Fat16Entry → Nat → State → Option (Flow State Result)) (count index : Nat)
    (held : Bytes) (position : Nat) (before : State) :
    ∀ entry ∈ (forTrace volume body count index held position before).1,
      entry.filename.length = 8 := by
  induction count generalizing index held position before with
  | zero => exact fun _ member => absurd member List.not_mem_nil
  | succ count inductionHypothesis =>
      unfold forTrace
      dsimp only
      split
      · exact List.forall_mem_singleton.mpr rfl
      · exact List.forall_mem_singleton.mpr rfl
      · exact List.forall_mem_cons.mpr ⟨rfl, inductionHypothesis _ _ _ _⟩

theorem walkOr_lengths (unset : Nat → Nat → UInt16)
    (body : Nat → Fat16Entry → Nat → State → Option (Flow State Result))
    (fuel call cluster : Nat) (held : Bytes) (position : Nat) (before : State) :
    ∀ entry ∈ (walkOr volume unset body fuel call cluster held position before).entries,
      entry.filename.length = 8 := by
  induction fuel generalizing call cluster held position before with
  | zero => exact fun _ member => absurd member List.not_mem_nil
  | succ fuel inductionHypothesis =>
      cases mark : isEndOfChain cluster with
      | true =>
          rw [walkOr_of_mark _ _ _ mark]
          exact fun _ member => absurd member List.not_mem_nil
      | false =>
          have looped : ∀ entry ∈ (forTrace volume body volume.entriesPerCluster 0 held
              (fseek (volume.clusterOffset cluster) position) before).1,
                entry.filename.length = 8 :=
            forTrace_lengths _ _ _ _ _ _
          rcases traced : forTrace volume body volume.entriesPerCluster 0 held
              (fseek (volume.clusterOffset cluster) position) before with
            ⟨entries, - | ⟨result | next, after⟩⟩
          · rw [traced] at looped
            simpa only [walkOr, mark, Bool.false_eq_true, if_false, traced] using looped
          · rw [traced] at looped
            rw [walkOr_of_next _ _ _ mark traced]
            exact List.forall_mem_append.mpr ⟨looped, inductionHypothesis _ _ _ _ _⟩
          · rw [traced] at looped
            rw [walkOr_of_done _ _ _ mark traced]
            exact looped

theorem forTrace_prints {count index position finish : Nat} {held heldAfter : Bytes}
    {lines after : List EntryLine} {walked : List Fat16Entry}
    (traced : forTrace volume listTurn count index held position lines =
      (walked, some (.next after finish, heldAfter))) :
    after = lines ++ usedLines walked := by
  induction count generalizing index held position lines walked with
  | zero =>
      cases traced
      exact (List.append_nil _).symm
  | succ count inductionHypothesis =>
      simp only [forTrace, listTurn_eq, Prod.mk.injEq] at traced
      obtain ⟨rfl, rest⟩ := traced
      rw [inductionHypothesis (Prod.ext rfl rest), List.append_assoc, ← usedLines_append]
      rfl

theorem walkOr_prints {unset : Nat → Nat → UInt16} {fuel call cluster position finish : Nat}
    {held : Bytes} {lines after : List EntryLine}
    (ended : (walkOr volume unset listTurn fuel call cluster held position lines).outcome =
      some (.next after finish)) :
    after = lines ++ usedLines
      (walkOr volume unset listTurn fuel call cluster held position lines).entries := by
  induction fuel generalizing call cluster held position lines with
  | zero => cases ended
  | succ fuel inductionHypothesis =>
      cases mark : isEndOfChain cluster with
      | true =>
          rw [walkOr_of_mark _ _ _ mark] at ended ⊢
          cases ended
          exact (List.append_nil _).symm
      | false =>
          obtain ⟨next, through⟩ := forTrace_passing volume listTurn_passing
            volume.entriesPerCluster 0 held (fseek (volume.clusterOffset cluster) position) lines
          rw [walkOr_of_next _ _ _ mark through] at ended ⊢
          rw [usedLines_append, ← List.append_assoc, ← forTrace_prints through]
          exact inductionHypothesis ended

end Entries

/-! ### The commands -/

section Scans

variable {volume : Volume} {navigator : Navigator} {State Result : Type}

/-- The first read of a chain is that of its first cluster. -/
theorem firstRead_of_chain
    (elsewhere : navigator.currentDirectoryOffset ≠ volume.rootDirectoryOffset)
    (inside : isEndOfChain navigator.currentDirectoryEntry.startingCluster.toNat = false)
    (nonempty : 0 < volume.entriesPerCluster) :
    fseek (volume.clusterOffset navigator.currentDirectoryEntry.startingCluster.toNat)
        (fseek navigator.currentDirectoryOffset navigator.position) ∈
      firstRead volume navigator := by
  unfold firstRead
  dsimp only
  rw [if_neg elsewhere, if_neg (by simp [inside, Nat.ne_of_gt nonempty])]
  rfl

/-- An entry first read inside the image does not show what the variables held. -/
theorem FirstEntryInside.sameBehind (inside : FirstEntryInside volume navigator)
    {position : Nat} (first : position ∈ firstRead volume navigator) (held other : Bytes) :
    SameBehind volume.image position held other :=
  sameBehind_of_inside (inside position first) held other

/-- A search of the current directory follows a walk through it that ends. -/
theorem scan_follows (taken : Fat16Entry → Prop) [DecidablePred taken]
    {body : Nat → Fat16Entry → Nat → State → Option (Flow State Result)} (passing : Passing body)
    {unset : Unset} (other : Unset) {before after : State} {fuel finish : Nat}
    (inside : FirstEntryInside volume navigator) (delivered : SearchInside volume navigator taken)
    (ended : (scan volume body unset fuel navigator before).outcome = some (.next after finish))
    (more : Nat) :
    Follows taken (scan volume (selectTurn taken) other more navigator ())
        (scan volume body unset fuel navigator before).entries ∧
      (fuel ≤ more → (scan volume (selectTurn taken) other more navigator ()).outcome.isSome) := by
  by_cases inRoot : navigator.currentDirectoryOffset = volume.rootDirectoryOffset
  · have reads : 0 < volume.bs.rootDirEntries.toNat → SameBehind volume.image
        (fseek navigator.currentDirectoryOffset navigator.position) unset.held other.held := by
      intro nonempty
      apply inside.sameBehind
      unfold firstRead
      dsimp only
      rw [if_pos inRoot, if_neg (Nat.ne_of_gt nonempty)]
      rfl
    obtain ⟨next, through⟩ := forTrace_passing volume passing
      volume.bs.rootDirEntries.toNat 0 unset.held
      (fseek navigator.currentDirectoryOffset navigator.position) before
    have searched := forTrace_beside volume taken volume.bs.rootDirEntries.toNat 0
      other.held (fseek navigator.currentDirectoryOffset navigator.position)
    obtain ⟨entries, -, -⟩ := readEntries_congr reads
    unfold scan
    simp only [if_pos inRoot, through]
    rw [entries]
    obtain ⟨follows, ends⟩ := searched.follows []
    exact ⟨follows, fun _ => ends⟩
  · unfold scan at ended ⊢
    dsimp only at ended ⊢
    rw [if_neg inRoot] at ended ⊢
    rw [if_neg inRoot]
    exact walkOr_follows taken passing
      (fun goesOn nonempty => inside.sameBehind (firstRead_of_chain inRoot goesOn nonempty) _ _)
      (delivered inRoot _) ended more other.next

/-- Beside a walk that ends, the FAT entries of a search lie inside the image, or it can be
sent round in circles. -/
theorem searchInside_or_endless (taken : Fat16Entry → Prop) [DecidablePred taken]
    {body : Nat → Fat16Entry → Nat → State → Option (Flow State Result)} (passing : Passing body)
    {unset : Unset} {before after : State} {fuel finish : Nat}
    (inside : FirstEntryInside volume navigator)
    (ended : (scan volume body unset fuel navigator before).outcome = some (.next after finish)) :
    SearchInside volume navigator taken ∨
      (navigator.currentDirectoryOffset ≠ volume.rootDirectoryOffset ∧ ∃ other, ∀ more,
        (scan volume (selectTurn taken) other more navigator ()).outcome = none ∧
        more * volume.entriesPerCluster ≤
          (scan volume (selectTurn taken) other more navigator ()).entries.length) := by
  by_cases inRoot : navigator.currentDirectoryOffset = volume.rootDirectoryOffset
  · exact .inl fun elsewhere => absurd inRoot elsewhere
  · by_cases endless : ∃ held value, ∀ more call,
        (walkOr volume (fun _ _ => value) (selectTurn taken) more call
          navigator.currentDirectoryEntry.startingCluster.toNat held
          (fseek navigator.currentDirectoryOffset navigator.position) ()).outcome = none ∧
        more * volume.entriesPerCluster ≤
          (walkOr volume (fun _ _ => value) (selectTurn taken) more call
            navigator.currentDirectoryEntry.startingCluster.toNat held
            (fseek navigator.currentDirectoryOffset navigator.position) ()).entries.length
    · obtain ⟨held, value, circles⟩ := endless
      refine .inr ⟨inRoot, ⟨held, fun _ _ => value⟩, fun more => ?_⟩
      unfold scan
      dsimp only
      rw [if_neg inRoot]
      exact circles more 0
    · refine .inl fun _ held => ?_
      unfold scan at ended
      dsimp only at ended
      rw [if_neg inRoot] at ended
      have either := linksDelivered_or_endless taken passing held
        (fun goesOn nonempty => inside.sameBehind (firstRead_of_chain inRoot goesOn nonempty) _ _)
        ended
      exact either.resolve_right fun circles => endless ⟨held, circles⟩

/-- The walk begins with its first read. -/
theorem scan_begins (body : Nat → Fat16Entry → Nat → State → Option (Flow State Result))
    (unset : Unset) (before : State) {fuel position : Nat}
    (first : position ∈ firstRead volume navigator)
    (enough : navigator.currentDirectoryOffset ≠ volume.rootDirectoryOffset → 0 < fuel) :
    ∃ rest, (scan volume body unset fuel navigator before).entries =
      .decode (fread volume.image entrySize position unset.held).1 :: rest := by
  have begins {count : Nat} (nonempty : 0 < count) (start : Nat) : ∃ rest,
      (forTrace volume body count 0 unset.held start before).1 =
        .decode (fread volume.image entrySize start unset.held).1 :: rest := by
    obtain ⟨count, rfl⟩ := Nat.exists_eq_add_one.mpr nonempty
    unfold forTrace
    dsimp only
    split
    · exact ⟨_, rfl⟩
    · exact ⟨_, rfl⟩
    · exact ⟨_, rfl⟩
  unfold scan
  unfold firstRead at first
  dsimp only at first ⊢
  split
  · rename_i inRoot
    rw [if_pos inRoot] at first
    obtain ⟨nonempty, here⟩ := Option.ite_none_left_eq_some.mp first
    cases here
    exact begins (Nat.pos_of_ne_zero nonempty) _
  · rename_i elsewhere
    rw [if_neg elsewhere] at first
    obtain ⟨goesOn, here⟩ := Option.ite_none_left_eq_some.mp first
    cases here
    obtain ⟨inside, nonempty⟩ := not_or.mp goesOn
    have mark := Bool.eq_false_of_not_eq_true inside
    obtain ⟨fuel, rfl⟩ := Nat.exists_eq_add_one.mpr (enough elsewhere)
    obtain ⟨rest, head⟩ := begins (Nat.pos_of_ne_zero nonempty) (fseek
      (volume.clusterOffset navigator.currentDirectoryEntry.startingCluster.toNat)
      (fseek navigator.currentDirectoryOffset navigator.position))
    rcases traced : forTrace volume body volume.entriesPerCluster 0 unset.held (fseek
        (volume.clusterOffset navigator.currentDirectoryEntry.startingCluster.toNat)
        (fseek navigator.currentDirectoryOffset navigator.position)) before with
      ⟨entries, - | ⟨result | next, after⟩⟩
    · rw [traced] at head
      simp only [walkOr, mark, Bool.false_eq_true, if_false, traced]
      exact ⟨rest, head⟩
    · rw [traced] at head
      rw [walkOr_of_next _ _ _ mark traced]
      exact ⟨rest ++ _, congrArg (· ++ _) head⟩
    · rw [traced] at head
      rw [walkOr_of_done _ _ _ mark traced]
      exact ⟨rest, head⟩

theorem scan_prints {unset : Unset} {lines : List EntryLine} {fuel finish : Nat}
    (ended : (scan volume listTurn unset fuel navigator []).outcome = some (.next lines finish)) :
    lines = usedLines (scan volume listTurn unset fuel navigator []).entries := by
  unfold scan at ended ⊢
  dsimp only at ended ⊢
  split
  · rename_i inRoot
    rw [if_pos inRoot] at ended
    obtain ⟨⟨flow, heldAfter⟩, looped, rfl⟩ := Option.map_eq_some_iff.mp ended
    exact forTrace_prints (Prod.ext rfl looped)
  · rename_i elsewhere
    rw [if_neg elsewhere] at ended
    exact walkOr_prints ended

theorem scan_lengths (body : Nat → Fat16Entry → Nat → State → Option (Flow State Result))
    (unset : Unset) (fuel : Nat) (before : State) :
    ∀ entry ∈ (scan volume body unset fuel navigator before).entries,
      entry.filename.length = 8 := by
  unfold scan
  dsimp only
  split
  · exact forTrace_lengths _ _ _ _ _ _
  · exact walkOr_lengths _ _ _ _ _ _ _ _

end Scans

section Runs

variable {volume : Volume} {navigator : Navigator} {unset : Unset} {fuel : Nat}

@[simp] theorem dividing_of_defined {State Result : Type} {behind : Trace State Result}
    (defined : volume.bs.sectorSize ≠ 0) : dividing volume behind = behind :=
  if_neg defined

/-- The loops traced are those of the other modules. -/
theorem scan_outcome {State Result : Type}
    (body : Nat → Fat16Entry → Nat → State → Option (Flow State Result)) (before : State) :
    (scan volume body volume.unset fuel navigator before).outcome =
      if navigator.currentDirectoryOffset = volume.rootDirectoryOffset then
        (forEntries volume body volume.bs.rootDirEntries.toNat 0 volume.uninitialised
          (fseek navigator.currentDirectoryOffset navigator.position) before).map Prod.fst
      else
        walkChain volume (fun _ => body) fuel
          navigator.currentDirectoryEntry.startingCluster.toNat volume.uninitialised
          (fseek navigator.currentDirectoryOffset navigator.position) before := by
  unfold scan Volume.unset
  dsimp only
  split
  · rw [forTrace_outcome]
  · rw [walkOr_eq_walkTrace, walkTrace_outcome]

/-- With a sector size and their variables `list_files` is that of the other modules. -/
theorem listFilesRun_eq (defined : volume.bs.sectorSize ≠ 0) :
    listFilesRun volume volume.unset fuel navigator = listFiles volume fuel navigator := by
  unfold listFilesRun listTrace listFiles
  rw [dividing_of_defined defined, ite_self, scan_outcome]
  by_cases inRoot : navigator.currentDirectoryOffset = volume.rootDirectoryOffset
  · cases looped : forEntries volume listTurn volume.bs.rootDirEntries.toNat 0
        volume.uninitialised (fseek navigator.currentDirectoryOffset navigator.position) [] with
    | none => simp only [if_pos inRoot, looped, Option.map_none]
    | some ended =>
        obtain ⟨flow, held⟩ := ended
        cases flow with
        | next lines position => simp only [if_pos inRoot, looped, Option.map_some]
        | done result position => cases result
  · cases walked : walkChain volume (fun _ => listTurn) fuel
        navigator.currentDirectoryEntry.startingCluster.toNat volume.uninitialised
        (fseek navigator.currentDirectoryOffset navigator.position) [] with
    | none => simp only [if_neg inRoot, walked]
    | some flow =>
        cases flow with
        | next lines position => simp only [if_neg inRoot, walked]
        | done result position => cases result

/-- The search of `read` is that of the other modules. -/
theorem readTrace_outcome (defined : volume.bs.sectorSize ≠ 0) (frame : Frame)
    (key : List UInt8) :
    (readTrace volume frame volume.unset fuel key navigator).outcome =
      selectFile volume frame fuel key navigator := by
  unfold readTrace
  rw [dividing_of_defined defined, scan_outcome]
  rfl

/-- The search of `change_directory` is that of the other modules. -/
theorem changeTrace_outcome (defined : volume.bs.sectorSize ≠ 0) (newDirectory : List UInt8) :
    (changeTrace volume volume.unset fuel newDirectory navigator).outcome.map
        (fun flow => (flow.selected, flow.position)) =
      findDirectory volume fuel (paddedName newDirectory)
        (navigator.currentDirectoryOffset == volume.rootDirectoryOffset)
        navigator.currentDirectoryEntry.startingCluster.toNat
        (fseek navigator.currentDirectoryOffset navigator.position) := by
  unfold changeTrace findDirectory
  rw [dividing_of_defined defined, scan_outcome]
  simp only [beq_iff_eq]
  split
  · split
    · rename_i endless
      simp [endless]
    · rename_i looped
      simp [looped, Flow.selected, Flow.position]
    · rename_i looped
      simp [looped, Flow.selected, Flow.position]
  · split
    · rename_i endless
      simp [endless]
    · rename_i walked
      simp [walked, Flow.selected, Flow.position]
    · rename_i walked
      simp [walked, Flow.selected, Flow.position]

theorem changeDirectoryRun_eq (defined : volume.bs.sectorSize ≠ 0)
    (newDirectory : Option (List UInt8)) :
    changeDirectoryRun volume volume.unset fuel newDirectory navigator =
      changeDirectory volume fuel newDirectory navigator := by
  cases newDirectory with
  | none => rfl
  | some newDirectory =>
      unfold changeDirectoryRun changeDirectory
      dsimp only
      split
      · rfl
      · rw [← changeTrace_outcome defined, Option.map_map]
        rfl

theorem listTrace_of_run {lines : List EntryLine} {finish : Nat}
    (listed : listFilesRun volume unset fuel navigator = some (lines, finish)) :
    (listTrace volume unset fuel navigator).outcome = some (.next lines finish) := by
  unfold listFilesRun at listed
  split at listed
  · rename_i ended
    cases listed
    exact ended
  · cases listed

/-- When `list_files` returns it has come to its loops. -/
theorem listTrace_eq_scan {flow : Flow (List EntryLine) Empty}
    (ended : (listTrace volume unset fuel navigator).outcome = some flow) :
    listTrace volume unset fuel navigator = scan volume listTurn unset fuel navigator [] := by
  unfold listTrace dividing at ended ⊢
  split
  · rfl
  · rename_i elsewhere
    rw [if_neg elsewhere] at ended
    split
    · rename_i trap
      rw [if_pos trap] at ended
      cases ended
    · rfl

theorem defined_of_outcome {State Result : Type} {behind : Trace State Result}
    {flow : Flow State Result} (ended : (dividing volume behind).outcome = some flow) :
    volume.bs.sectorSize ≠ 0 := by
  intro trap
  rw [dividing, if_pos trap] at ended
  cases ended

/-- A call with a name of at most eight bytes does what its search says. -/
theorem changeDirectoryRun_arrives {newDirectory : List UInt8} {after : Navigator}
    (short : newDirectory.length ≤ 8)
    (ran : changeDirectoryRun volume unset fuel (some newDirectory) navigator = some after) :
    ∃ flow, (changeTrace volume unset fuel newDirectory navigator).outcome = some flow ∧
      Arrives volume (navigator.currentDirectoryOffset == volume.rootDirectoryOffset) newDirectory
        navigator after flow.selected := by
  unfold changeDirectoryRun at ran
  dsimp only at ran
  rw [if_neg (Nat.not_lt.mpr short)] at ran
  obtain ⟨flow, ended, moved⟩ := Option.map_eq_some_iff.mp ran
  refine ⟨flow, ended, flow.position, ?_⟩
  rw [← moved]
  cases flow with
  | next state position => rfl
  | done entry position => rfl

theorem changeDirectoryRun_returns {newDirectory : List UInt8} {flow : Flow Unit Fat16Entry}
    (short : newDirectory.length ≤ 8)
    (ended : (changeTrace volume unset fuel newDirectory navigator).outcome = some flow) :
    ∃ after, changeDirectoryRun volume unset fuel (some newDirectory) navigator = some after := by
  unfold changeDirectoryRun
  dsimp only
  rw [if_neg (Nat.not_lt.mpr short), ended]
  exact ⟨_, rfl⟩

/-- In a walk the entries taken for the name are the directories printed with it. -/
theorem find?_takenFor {newDirectory : List UInt8} {walked : List Fat16Entry}
    (lengths : ∀ entry ∈ walked, entry.filename.length = 8) (short : newDirectory.length ≤ 8)
    (noNul : 0 ∉ newDirectory) :
    walked.find? (TakenFor (paddedName newDirectory)) =
      walked.find? (PrintedDirectory newDirectory) := by
  apply List.find?_congr
  intro entry member
  rw [decide_eq_decide, takenFor_iff short noNul (lengths entry member)]
  simp only [PrintedDirectory, Fat16Entry.isDirectory, decide_eq_true_eq, and_assoc]

/-- A read that the end of the image cuts off leaves bytes of the variable. -/
theorem decode_fread_ne {image : Image} {position : Nat}
    (cut : image.size < position + entrySize) (held : Bytes) :
    Fat16Entry.decode (fread image entrySize position fun index => held index + 1).1 ≠
      .decode (fread image entrySize position held).1 := by
  have kept (bytes : Bytes) : (fread image entrySize position bytes).1 31 = bytes 31 := by
    apply if_neg
    unfold entrySize at cut
    omega
  intro same
  have sizes := congrArg (fun entry => uintBytes entry.fileSize) same
  simp only [Fat16Entry.decode, uintBytes_uint] at sizes
  simp [kept] at sizes

end Runs

/-! ### The same directory -/

section Same

variable {volume : Volume} {navigator : Navigator} {unset : Unset} {fuel finish : Nat}
  {lines : List EntryLine}

theorem changeTrace_eq_scan (defined : volume.bs.sectorSize ≠ 0) (other : Unset) (more : Nat)
    (name : List UInt8) :
    changeTrace volume other more name navigator =
      scan volume (selectTurn (TakenFor (paddedName name))) other more navigator () := by
  unfold changeTrace
  rw [dividing_of_defined defined, directoryTurn_eq_selectTurn]

/-- When the reads that matter lie inside the image, the searches follow the walk of
`list_files` and end within its bound. -/
theorem seesSame_of_inside {frame : Frame} (defined : volume.bs.sectorSize ≠ 0)
    (inside : FirstEntryInside volume navigator)
    (searches : SearchesInside volume frame navigator)
    (ended : (scan volume listTurn unset fuel navigator []).outcome = some (.next lines finish)) :
    SeesSame volume frame navigator (scan volume listTurn unset fuel navigator []).entries
      lines := by
  have follows (name : List UInt8) (short : name.length ≤ 8) (noNul : 0 ∉ name) (other : Unset) :=
    scan_follows (TakenFor (paddedName name)) listTurn_passing other inside
      (searches.change name short noNul) ended
  constructor
  · exact scan_prints ended
  · intro other more name short noNul
    rw [changeTrace_eq_scan defined]
    exact (follows name short noNul other more).1.examined
  · intro other more filename key given
    unfold readTrace
    rw [dividing_of_defined defined]
    exact (scan_follows _ listTurn_passing other inside (searches.read filename key given) ended
      more).1.examined
  · intro other name short noNul
    obtain ⟨flow, stopped⟩ := Option.isSome_iff_exists.mp
      ((follows name short noNul other fuel).2 (Nat.le_refl fuel))
    rw [← changeTrace_eq_scan defined] at stopped
    exact ⟨fuel, changeDirectoryRun_returns short stopped⟩
  · intro other name short noNul more after ran
    obtain ⟨flow, stopped, arrives⟩ := changeDirectoryRun_arrives short ran
    rw [changeTrace_eq_scan defined] at stopped
    rw [← find?_takenFor (scan_lengths _ _ _ _) short noNul,
      ← (follows name short noNul other more).1.selected flow stopped]
    exact arrives

/-- The search of `read` selects the first entry that matches of those that `list_files`
walks. -/
theorem readTrace_selects {frame : Frame} {other : Unset} {more : Nat}
    {filename key : List UInt8} {flow : Flow Unit Fat16Entry}
    (inside : FirstEntryInside volume navigator)
    (searches : SearchesInside volume frame navigator) (given : namecmp filename = some key)
    (listed : listFilesRun volume unset fuel navigator = some (lines, finish))
    (searched : (readTrace volume frame other more key navigator).outcome = some flow) :
    flow.selected =
      (listTrace volume unset fuel navigator).entries.find? (Matches frame key) := by
  have ended := listTrace_of_run listed
  have walk := listTrace_eq_scan ended
  rw [walk] at ended ⊢
  unfold readTrace at searched
  rw [dividing_of_defined (defined_of_outcome searched)] at searched
  exact (scan_follows _ listTurn_passing other inside (searches.read filename key given) ended
    more).1.selected flow searched

/-- Variables that hold something else at first show when the first read is cut off. -/
theorem firstEntryInside_of_seesSame {frame : Frame} (defined : volume.bs.sectorSize ≠ 0)
    (ended : (scan volume listTurn unset fuel navigator []).outcome = some (.next lines finish))
    (same : SeesSame volume frame navigator
      (scan volume listTurn unset fuel navigator []).entries lines) :
    FirstEntryInside volume navigator := by
  intro position first
  by_contra cut
  have ran (elsewhere : navigator.currentDirectoryOffset ≠ volume.rootDirectoryOffset) :
      0 < fuel := by
    apply Nat.pos_of_ne_zero
    rintro rfl
    unfold scan at ended
    dsimp only at ended
    rw [if_neg elsewhere] at ended
    cases ended
  let other : Unset := ⟨fun index => unset.held index + 1, unset.next⟩
  obtain ⟨rest, walked⟩ := scan_begins listTurn unset [] first ran
  obtain ⟨others, examined⟩ := scan_begins (directoryTurn (paddedName [])) other () first
    fun _ => Nat.one_pos
  have front := same.change other 1 [] (Nat.zero_le 8) List.not_mem_nil
  unfold changeTrace at front
  rw [dividing_of_defined defined, examined, walked] at front
  exact decode_fread_ne (Nat.not_le.mp cut) unset.held (List.cons_prefix_cons.mp front).1

/-- A search that is sent round in circles shows that a FAT entry is cut off. -/
theorem searchesInside_of_seesSame {frame : Frame} (defined : volume.bs.sectorSize ≠ 0)
    (inside : FirstEntryInside volume navigator)
    (ended : (scan volume listTurn unset fuel navigator []).outcome = some (.next lines finish))
    (same : SeesSame volume frame navigator
      (scan volume listTurn unset fuel navigator []).entries lines) :
    SearchesInside volume frame navigator := by
  have change (name : List UInt8) (short : name.length ≤ 8) (noNul : 0 ∉ name) :
      SearchInside volume navigator (TakenFor (paddedName name)) := by
    apply (searchInside_or_endless _ listTurn_passing inside ended).resolve_right
    rintro ⟨-, other, circles⟩
    -- `change_directory` is to return.
    obtain ⟨more, after, ran⟩ := same.returns other name short noNul
    obtain ⟨flow, stopped, -⟩ := changeDirectoryRun_arrives short ran
    rw [changeTrace_eq_scan defined, (circles more).1] at stopped
    cases stopped
  refine ⟨change, fun filename key given => ?_⟩
  rcases Nat.eq_zero_or_pos volume.entriesPerCluster with none | nonempty
  · -- Without entries the search of `read` follows the same FAT entries.
    exact fun elsewhere held =>
      (change [] (Nat.zero_le 8) List.not_mem_nil elsewhere held).of_no_entries none _
  · apply (searchInside_or_endless _ listTurn_passing inside ended).resolve_right
    rintro ⟨-, other, circles⟩
    -- The search examines more than was listed.
    have examined := (same.read other
      ((scan volume listTurn unset fuel navigator []).entries.length + 1) filename key
      given).length_le
    unfold readTrace at examined
    rw [dividing_of_defined defined] at examined
    have longer := (circles ((scan volume listTurn unset fuel navigator []).entries.length + 1)).2
    have more := Nat.le_mul_of_pos_right
      ((scan volume listTurn unset fuel navigator []).entries.length + 1) nonempty
    omega

end Same

/-- Wherever `list_files` returns, the three commands see one directory exactly if the
sector size is not 0, the first entry read, if one is read, lies inside the image, and so do
the FAT entries that a search follows before it meets its name. -/
theorem sees_same_iff (volume : Volume) (frame : Frame) (navigator : Navigator) (unset : Unset)
    (fuel finish : Nat) (lines : List EntryLine)
    (listed : listFilesRun volume unset fuel navigator = some (lines, finish)) :
    SeesSame volume frame navigator (listTrace volume unset fuel navigator).entries lines ↔
      volume.bs.sectorSize ≠ 0 ∧ FirstEntryInside volume navigator ∧
        SearchesInside volume frame navigator := by
  have ended := listTrace_of_run listed
  have walk := listTrace_eq_scan ended
  rw [walk] at ended ⊢
  constructor
  · intro same
    have short : ([] : List UInt8).length ≤ 8 := Nat.zero_le 8
    obtain ⟨enough, after, changed⟩ := same.returns unset [] short List.not_mem_nil
    obtain ⟨flow, stopped, -⟩ := changeDirectoryRun_arrives short changed
    have defined := defined_of_outcome stopped
    have inside := firstEntryInside_of_seesSame defined ended same
    exact ⟨defined, inside, searchesInside_of_seesSame defined inside ended same⟩
  · rintro ⟨defined, inside, searches⟩
    exact seesSame_of_inside defined inside searches ended

/-- In a directory whose chain is readable the FAT entries lie inside the image. -/
theorem searchesInside_of_chain {volume : Volume} {navigator : Navigator} {clusters : List Nat}
    (chain : volume.Chain navigator.currentDirectoryEntry.startingCluster.toNat clusters)
    (frame : Frame) : SearchesInside volume frame navigator :=
  ⟨fun _ _ _ _ _ => chain.linksDelivered .., fun _ _ _ _ _ => chain.linksDelivered ..⟩

/-- They see the same in `/A`, whose chain is walked. -/
theorem sees_same_top : ∃ navigator lines,
    (navigation nestedVolume).Reached PartialMachine.anyStep (.start nestedVolume 0) navigator ∧
      navigator.currentDirectoryOffset ≠ nestedVolume.rootDirectoryOffset ∧
      SeesSame nestedVolume ⟨[], []⟩ navigator
        (listTrace nestedVolume nestedVolume.unset 2 navigator).entries lines := by
  obtain ⟨navigator, reached, elsewhere, atTop, returned, inside⟩ :=
    PartialMachine.exists_reached_of_any
      (navigation nestedVolume) PartialMachine.anyStep (.start nestedVolume 0) [(some [0x41], 0)]
      (fun navigator => navigator.currentDirectoryOffset ≠ nestedVolume.rootDirectoryOffset ∧
        navigator.currentDirectoryEntry.startingCluster = 2 ∧
        (listFilesRun nestedVolume nestedVolume.unset 2 navigator).isSome ∧
        FirstEntryInside nestedVolume navigator) (by decide)
  obtain ⟨⟨lines, finish⟩, listed⟩ := Option.isSome_iff_exists.mp returned
  have chain : nestedVolume.Chain navigator.currentDirectoryEntry.startingCluster.toNat [2] := by
    rw [atTop]
    exact nestedVolume_chain.1
  exact ⟨navigator, lines, reached, elsewhere,
    (sees_same_iff nestedVolume ⟨[], []⟩ navigator nestedVolume.unset 2 finish lines listed).mpr
      ⟨by decide, inside, searchesInside_of_chain chain _⟩⟩

/-- A volume without a sector size, with a file in the root and no directory, so that
`print_tree` at start-up divides nowhere. -/
def unsizedVolume : Volume :=
  mount (.ofPatches 3072
    [(454, [1]), (523, [0x00, 0x00, 1, 1, 0, 1, 16, 0]), (534, [1, 0]),
      (1024, entryBytes [0x41] 0x20 2)]) fun _ => 0

/-- There `list_files` prints the file, and the other two commands trap. -/
theorem zero_sector_size_traps :
    ¬ ∀ (image : Image) (uninitialised : Bytes) (frame : Frame) (position : Nat)
        (navigator : Navigator) (unset : Unset) (fuel finish : Nat) (lines : List EntryLine),
      (navigation (mount image uninitialised)).Reached PartialMachine.anyStep
          (.start (mount image uninitialised) position) navigator →
        listFilesRun (mount image uninitialised) unset fuel navigator = some (lines, finish) →
          SeesSame (mount image uninitialised) frame navigator
            (listTrace (mount image uninitialised) unset fuel navigator).entries lines := by
  intro claimed
  have printed : (listFilesRun unsizedVolume unsizedVolume.unset 0
      (.start unsizedVolume 0)).isSome := by
    decide
  obtain ⟨⟨lines, finish⟩, listed⟩ := Option.isSome_iff_exists.mp printed
  have same : SeesSame unsizedVolume ⟨[], []⟩ (.start unsizedVolume 0)
      (listTrace unsizedVolume unsizedVolume.unset 0 (.start unsizedVolume 0)).entries lines :=
    claimed _ _ _ 0 _ _ 0 finish lines .start listed
  have short : [(0x41 : UInt8)].length ≤ 8 := by decide
  obtain ⟨fuel, after, changed⟩ := same.returns unsizedVolume.unset [0x41] short (by decide)
  obtain ⟨flow, stopped, -⟩ := changeDirectoryRun_arrives short changed
  exact absurd (defined_of_outcome stopped) (by decide)

end Ivos.Fat
