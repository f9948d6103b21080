/-
Module: Ivos.Fat.CorruptChains
Purpose: When `list_files`, `change_directory` and `read` return, whatever the FAT
  holds.
Trusted boundary: none
Main exports: Steady, walkChain_of_end, end_of_walkChain, Image.entriesRead, listFilesDivided,
  changeDirectoryDivided, readDivided, CommandsReturn, LinksEnd, RootFilesEnd,
  commands_return_iff, cyclic_directory_hangs
-/
import Ivos.Fat.Listing
import Ivos.Fat.Reading

namespace Ivos.Fat

/-! ### Loops that leave the stream alone -/

section Loops

variable {State Result : Type} {volume : Volume}

/-- A body that returns or goes on without moving the stream. -/
def Steady (body : Nat → Fat16Entry → Nat → State → Option (Flow State Result)) : Prop :=
  ∀ index entry position before, ∃ flow, body index entry position before = some flow ∧
    ∀ after finish, flow = .next after finish → finish = position

/-- Two reads one after the other go as far as one of both lengths. -/
theorem read_twice (size position first second : Nat) :
    position + min first (size - position) +
        min second (size - (position + min first (size - position))) =
      position + min (first + second) (size - position) := by
  omega

/-- A `for` loop with such a body ends behind the entries it reads, inside the image or
not. -/
theorem forEntries_steady (volume : Volume)
    {body : Nat → Fat16Entry → Nat → State → Option (Flow State Result)} (steady : Steady body)
    (count index : Nat) (held : Bytes) (position : Nat) (before : State) :
    ∃ flow heldAfter, forEntries volume body count index held position before =
        some (flow, heldAfter) ∧
      ∀ after finish, flow = .next after finish →
        finish = position + min (entrySize * count) (volume.image.size - position) := by
  induction count generalizing index held position before with
  | zero =>
      refine ⟨_, _, rfl, fun after finish goes => ?_⟩
      cases goes
      simp
  | succ count inductionHypothesis =>
      obtain ⟨flow, turned, stays⟩ := steady index
        (.decode (fread volume.image entrySize position held).1)
        (fread volume.image entrySize position held).2 before
      unfold forEntries
      simp only [turned]
      cases flow with
      | done result finish => exact ⟨_, _, rfl, fun _ _ goes => by cases goes⟩
      | next after finish =>
          have behind : finish = position + min entrySize (volume.image.size - position) :=
            stays after finish rfl
          obtain ⟨last, heldAfter, looped, ends⟩ := inductionHypothesis (index + 1)
            (fread volume.image entrySize position held).1 finish after
          refine ⟨last, heldAfter, looped, fun final stop goes => ?_⟩
          rw [ends final stop goes, behind, read_twice, Nat.mul_succ, Nat.add_comm entrySize]

/-- One turn of a `while` loop with such a body that goes on follows one link. -/
theorem walkChain_steady
    {body : Int → Nat → Fat16Entry → Nat → State → Option (Flow State Result)}
    (steady : ∀ offset, Steady (body offset)) (fuel : Nat) {cluster : Nat} (held : Bytes)
    (position : Nat) (before : State) (inside : isEndOfChain cluster = false) :
    (∃ flow, walkChain volume body (fuel + 1) cluster held position before = some flow ∧
      ∃ result finish, flow = .done result finish) ∨
    ∃ after heldAfter, walkChain volume body (fuel + 1) cluster held position before =
      walkChain volume body fuel
        (volume.follow (entrySize * volume.entriesPerCluster) (cluster, position)).1 heldAfter
        (volume.follow (entrySize * volume.entriesPerCluster) (cluster, position)).2 after := by
  obtain ⟨flow, heldAfter, looped, ends⟩ := forEntries_steady volume
    (steady (volume.clusterOffset cluster)) volume.entriesPerCluster 0 held
    (fseek (volume.clusterOffset cluster) position) before
  simp only [walkChain, inside, Bool.false_eq_true, if_false, looped]
  cases flow with
  | done result finish => exact .inl ⟨_, rfl, result, finish, rfl⟩
  | next after finish =>
      rw [ends after finish rfl]
      exact .inr ⟨after, heldAfter, rfl⟩

/-- Where the links come to an end mark, the `while` loop ends. -/
theorem walkChain_of_end
    {body : Int → Nat → Fat16Entry → Nat → State → Option (Flow State Result)}
    (steady : ∀ offset, Steady (body offset)) {turns cluster position : Nat}
    (ends : isEndOfChain ((volume.follow (entrySize * volume.entriesPerCluster))^[turns]
      (cluster, position)).1 = true) (held : Bytes) (before : State) :
    ∃ flow, walkChain volume body (turns + 1) cluster held position before = some flow := by
  induction turns generalizing cluster position held before with
  | zero =>
      rw [Function.iterate_zero_apply] at ends
      exact ⟨.next before position, if_pos ends⟩
  | succ turns inductionHypothesis =>
      cases mark : isEndOfChain cluster with
      | true => exact ⟨.next before position, if_pos mark⟩
      | false =>
          rw [Function.iterate_succ_apply] at ends
          rcases walkChain_steady steady (turns + 1) held position before mark with
            ⟨flow, returned, -⟩ | ⟨after, heldAfter, onward⟩
          · exact ⟨flow, returned⟩
          · rw [onward]
            exact inductionHypothesis ends heldAfter after

/-- A `while` loop that ends without a result has come to an end mark. -/
theorem end_of_walkChain
    {body : Int → Nat → Fat16Entry → Nat → State → Option (Flow State Result)}
    (steady : ∀ offset, Steady (body offset)) {fuel cluster position finish : Nat} {held : Bytes}
    {before after : State}
    (ran : walkChain volume body fuel cluster held position before = some (.next after finish)) :
    ∃ turns, isEndOfChain ((volume.follow (entrySize * volume.entriesPerCluster))^[turns]
      (cluster, position)).1 = true := by
  induction fuel generalizing cluster position held before with
  | zero => cases ran
  | succ fuel inductionHypothesis =>
      cases mark : isEndOfChain cluster with
      | true => exact ⟨0, by rw [Function.iterate_zero_apply, mark]⟩
      | false =>
          rcases walkChain_steady steady fuel held position before mark with
            ⟨flow, returned, result, stop, rfl⟩ | ⟨next, heldAfter, onward⟩
          · rw [returned] at ran
            cases ran
          · rw [onward] at ran
            obtain ⟨turns, ends⟩ := inductionHypothesis ran
            exact ⟨turns + 1, by rw [Function.iterate_succ_apply, ends]⟩

theorem listTurn_steady : Steady listTurn := by
  intro index entry position lines
  refine ⟨_, listTurn_eq index entry position lines, fun after finish goes => ?_⟩
  cases goes
  rfl

theorem selectTurn_steady (taken : Fat16Entry → Prop) [DecidablePred taken] :
    Steady (selectTurn taken) := by
  intro index entry position state
  unfold selectTurn
  split
  · exact ⟨_, rfl, fun _ _ goes => by cases goes⟩
  · refine ⟨_, rfl, fun after finish goes => ?_⟩
    cases goes
    rfl

/-- The entries a `for` loop reads, inside the image or not, with the positions behind
them. -/
def Image.entriesRead (image : Image) : Nat → Bytes → Nat → List (Fat16Entry × Nat)
  | 0, _, _ => []
  | count + 1, held, position =>
      let (held, position) := fread image entrySize position held
      (.decode held, position) :: image.entriesRead count held position

section Search

variable {taken : Fat16Entry → Prop} [DecidablePred taken] {entry : Fat16Entry} {finish : Nat}

/-- The `for` loop of a search returns with the first entry read that is taken. -/
theorem forEntries_returns_iff (index : Nat) {count position : Nat} {held : Bytes} :
    (∃ heldAfter, forEntries volume (selectTurn taken) count index held position () =
        some (.done entry finish, heldAfter)) ↔
      (volume.image.entriesRead count held position).find? (fun read => taken read.1) =
        some (entry, finish) := by
  induction count generalizing index held position with
  | zero => simp [forEntries, Image.entriesRead]
  | succ count inductionHypothesis =>
      unfold forEntries Image.entriesRead
      by_cases found : taken (.decode (fread volume.image entrySize position held).1)
      · simp [selectTurn, found]
      · simp only [selectTurn, found, if_false, decide_false, Bool.false_eq_true,
          not_false_eq_true, List.find?_cons_of_neg]
        exact inductionHypothesis (index + 1)

/-- Clusters without bytes hold no entry. -/
theorem walkChain_no_entries (none : volume.entriesPerCluster = 0) {fuel cluster position : Nat}
    {held : Bytes} :
    walkChain volume (fun _ => selectTurn taken) fuel cluster held position () ≠
      some (.done entry finish) := by
  induction fuel generalizing cluster held position with
  | zero => exact nofun
  | succ fuel inductionHypothesis =>
      cases mark : isEndOfChain cluster with
      | true => simp [walkChain, mark]
      | false =>
          simp only [walkChain, mark, Bool.false_eq_true, if_false, none, forEntries]
          exact inductionHypothesis

end Search

end Loops

/-! ### The division

Each of the commands computes `first_data_sector` and divides by the sector size for it.
`list_files` does so outside the root directory only, `change_directory` and `read` in every
directory, but not for an argument that they refuse.  With sectors of 0 bytes the division
stops the program, and no command comes back.
-/

section Division

variable (volume : Volume)

/-- What a command comes to behind the division. -/
def Volume.divided {Result : Type} (behind : Option Result) : Option Result :=
  if volume.bs.sectorSize = 0 then none else behind

def listFilesDivided (fuel : Nat) (navigator : Navigator) : Option (List EntryLine × Nat) :=
  if navigator.currentDirectoryOffset = volume.rootDirectoryOffset then
    listFiles volume fuel navigator
  else volume.divided (listFiles volume fuel navigator)

def changeDirectoryDivided (fuel : Nat) (newDirectory : Option (List UInt8))
    (navigator : Navigator) : Option Navigator :=
  match newDirectory with
  | none => changeDirectory volume fuel none navigator
  | some name =>
      if name.length > 8 then changeDirectory volume fuel (some name) navigator
      else volume.divided (changeDirectory volume fuel (some name) navigator)

def readDivided (frame : Frame) (fuel : Nat) (filename : Option (List UInt8))
    (navigator : Navigator) : Option (ReadOutcome × Nat) :=
  match filename with
  | none => read volume frame fuel none navigator
  | some name => volume.divided (read volume frame fuel (some name) navigator)

variable {volume}

theorem divided_eq_some_iff {Result : Type} {behind : Option Result} {result : Result} :
    volume.divided behind = some result ↔ volume.bs.sectorSize ≠ 0 ∧ behind = some result := by
  unfold Volume.divided
  split
  · rename_i trap
    exact iff_of_false (Option.some_ne_none result).symm fun returns => returns.1 trap
  · rename_i defined
    exact (and_iff_right defined).symm

theorem listFilesDivided_of_defined (defined : volume.bs.sectorSize ≠ 0) (fuel : Nat)
    (navigator : Navigator) :
    listFilesDivided volume fuel navigator = listFiles volume fuel navigator := by
  unfold listFilesDivided Volume.divided
  rw [if_neg defined, ite_self]

theorem changeDirectoryDivided_of_defined (defined : volume.bs.sectorSize ≠ 0) (fuel : Nat)
    (newDirectory : Option (List UInt8)) (navigator : Navigator) :
    changeDirectoryDivided volume fuel newDirectory navigator =
      changeDirectory volume fuel newDirectory navigator := by
  cases newDirectory with
  | none => rfl
  | some name =>
      unfold changeDirectoryDivided Volume.divided
      dsimp only
      rw [if_neg defined, ite_self]

theorem readDivided_of_defined (defined : volume.bs.sectorSize ≠ 0) (frame : Frame) (fuel : Nat)
    (filename : Option (List UInt8)) (navigator : Navigator) :
    readDivided volume frame fuel filename navigator =
      read volume frame fuel filename navigator := by
  cases filename with
  | none => rfl
  | some name => exact if_neg defined

end Division

/-! ### When the commands return

On any image, however corrupt, a walk depends on the links alone: it ends if the chain
reaches an end mark and goes round for ever otherwise.  The FAT entries are taken as they
stand, inside the image or not.
-/

section Commands

variable (volume : Volume) (frame : Frame) (navigator : Navigator)

/-- The extraction of the entry ends: it reads something in every turn, or it has nothing
to read, or the links come to an end mark that its loop knows. -/
def Extractable (inRoot : Bool) (entry : Fat16Entry) (position : Nat) : Prop :=
  clusterSize volume.bs ≠ 0 ∨ entry.fileSize.toNat = 0 ∨
    ∃ turns, (if inRoot then 0xFFF8 else 0xFFFF) ≤
      ((volume.follow 0)^[turns] (entry.startingCluster.toNat, position)).1

/-- The three commands return, whatever their arguments; a filename is to have a name. -/
structure CommandsReturn : Prop where
  list : ∃ fuel result, listFilesDivided volume fuel navigator = some result
  change : ∀ newDirectory, ∃ fuel result,
    changeDirectoryDivided volume fuel newDirectory navigator = some result
  read : ∀ filename, (∀ name ∈ filename, namecmp name ≠ none) →
    ∃ fuel result, readDivided volume frame fuel filename navigator = some result

/-- The program takes the current directory for the root, or the links from its first
cluster come to an end mark. -/
def LinksEnd : Prop :=
  navigator.currentDirectoryOffset = volume.rootDirectoryOffset ∨
    ∃ turns, isEndOfChain ((volume.follow (entrySize * volume.entriesPerCluster))^[turns]
      (navigator.currentDirectoryEntry.startingCluster.toNat,
        fseek navigator.currentDirectoryOffset navigator.position)).1 = true

/-- For every request, the first entry read in the root directory that is taken for the
file is empty, or its links come to an end mark. -/
def RootFilesEnd : Prop :=
  ∀ filename key, namecmp filename = some key → ∀ entry position,
    (volume.image.entriesRead volume.bs.rootDirEntries.toNat volume.uninitialised
        (fseek volume.rootDirectoryOffset navigator.position)).find?
          (fun read => Matches frame key read.1) = some (entry, position) →
      entry.fileSize.toNat = 0 ∨ ∃ turns, 0xFFF8 ≤
        ((volume.follow 0)^[turns] (entry.startingCluster.toNat, position)).1

end Commands

section Returns

variable {volume : Volume} {navigator : Navigator}

theorem listFiles_returns_iff :
    (∃ fuel result, listFiles volume fuel navigator = some result) ↔ LinksEnd volume navigator := by
  unfold listFiles LinksEnd
  by_cases inRoot : navigator.currentDirectoryOffset = volume.rootDirectoryOffset
  · simp only [inRoot, if_true, true_or, iff_true]
    obtain ⟨flow, heldAfter, looped, -⟩ := forEntries_steady volume listTurn_steady
      volume.bs.rootDirEntries.toNat 0 volume.uninitialised
      (fseek volume.rootDirectoryOffset navigator.position) []
    cases flow with
    | done result finish => cases result
    | next lines finish => exact ⟨0, (lines, finish), by rw [looped]⟩
  · simp only [inRoot, if_false, false_or]
    constructor
    · rintro ⟨fuel, result, returned⟩
      split at returned
      · rename_i walked
        exact end_of_walkChain (fun _ => listTurn_steady) walked
      · cases returned
    · rintro ⟨turns, ends⟩
      obtain ⟨flow, walked⟩ := walkChain_of_end (fun _ => listTurn_steady) ends
        volume.uninitialised []
      cases flow with
      | done result finish => cases result
      | next lines finish => exact ⟨turns + 1, (lines, finish), by rw [walked]⟩

theorem selectFile_of_linksEnd (frame : Frame) (linksEnd : LinksEnd volume navigator)
    (key : List UInt8) :
    ∃ fuel flow, selectFile volume frame fuel key navigator = some flow := by
  unfold selectFile
  by_cases inRoot : navigator.currentDirectoryOffset = volume.rootDirectoryOffset
  · simp only [inRoot, if_true]
    obtain ⟨flow, heldAfter, looped, -⟩ := forEntries_steady volume
      (selectTurn_steady (Matches frame key)) volume.bs.rootDirEntries.toNat 0
      volume.uninitialised (fseek volume.rootDirectoryOffset navigator.position) ()
    exact ⟨0, flow, by rw [looped]; rfl⟩
  · simp only [inRoot, if_false]
    obtain ⟨turns, ends⟩ := linksEnd.resolve_left inRoot
    obtain ⟨flow, walked⟩ := walkChain_of_end (fun _ => selectTurn_steady (Matches frame key)) ends
      volume.uninitialised ()
    exact ⟨turns + 1, flow, walked⟩

theorem findDirectory_of_linksEnd (linksEnd : LinksEnd volume navigator) (name : List UInt8) :
    ∃ fuel result, findDirectory volume fuel name
      (navigator.currentDirectoryOffset == volume.rootDirectoryOffset)
      navigator.currentDirectoryEntry.startingCluster.toNat
      (fseek navigator.currentDirectoryOffset navigator.position) = some result := by
  unfold findDirectory
  rw [directoryTurn_eq_selectTurn]
  by_cases inRoot : navigator.currentDirectoryOffset = volume.rootDirectoryOffset
  · obtain ⟨flow, heldAfter, looped, -⟩ := forEntries_steady volume
      (selectTurn_steady (TakenFor name)) volume.bs.rootDirEntries.toNat 0
      volume.uninitialised (fseek navigator.currentDirectoryOffset navigator.position) ()
    refine ⟨0, ?_⟩
    rw [if_pos (beq_iff_eq.mpr inRoot), looped]
    cases flow with
    | done entry finish => exact ⟨_, rfl⟩
    | next state finish => exact ⟨_, rfl⟩
  · obtain ⟨turns, ends⟩ := linksEnd.resolve_left inRoot
    obtain ⟨flow, walked⟩ := walkChain_of_end (fun _ => selectTurn_steady (TakenFor name)) ends
      volume.uninitialised ()
    refine ⟨turns + 1, ?_⟩
    rw [if_neg (fun same => inRoot (beq_iff_eq.mp same)), walked]
    cases flow with
    | done entry finish => exact ⟨_, rfl⟩
    | next state finish => exact ⟨_, rfl⟩

theorem changeDirectory_of_linksEnd (linksEnd : LinksEnd volume navigator)
    (newDirectory : Option (List UInt8)) :
    ∃ fuel result, changeDirectory volume fuel newDirectory navigator = some result := by
  unfold changeDirectory
  cases newDirectory with
  | none => exact ⟨0, navigator, rfl⟩
  | some name =>
      by_cases long : name.length > 8
      · exact ⟨0, navigator, if_pos long⟩
      · obtain ⟨fuel, result, found⟩ := findDirectory_of_linksEnd linksEnd (paddedName name)
        refine ⟨fuel, ?_⟩
        dsimp only
        rw [if_neg long, found]
        exact ⟨_, rfl⟩

/-- Whether an extraction ends. -/
theorem extract_returns_iff {inRoot : Bool} {entry : Fat16Entry} {position : Nat} :
    (∃ fuel final, extract volume inRoot fuel entry position = some final) ↔
      Extractable volume inRoot entry position := by
  unfold Extractable
  rcases Nat.eq_zero_or_pos (clusterSize volume.bs) with none | nonempty
  · have follows (turns : Nat) : ((extractTurn volume entry.fileSize.toNat)^[turns]
        (.start volume entry position)).currentCluster =
          ((volume.follow 0)^[turns] (entry.startingCluster.toNat, position)).1 := by
      rw [iterate_currentCluster rfl (by rw [none, Nat.mul_zero]; exact Nat.zero_le _), none]
      rfl
    have unread (turns : Nat) : ((extractTurn volume entry.fileSize.toNat)^[turns]
        (.start volume entry position)).bytesRead = 0 := by
      rw [iterate_bytesRead (fun _ => extractTurn_bytesRead) rfl, none, Nat.mul_zero, Nat.zero_min]
    simp only [extract, whileLoop_terminates_iff, ne_eq, none, not_true_eq_false, false_or,
      Bool.eq_false_iff, extractionGoesOn_iff, follows, unread, not_and_or, Nat.not_lt,
      Nat.le_zero]
    constructor
    · rintro ⟨turns, ends | empty⟩
      · exact .inr ⟨turns, ends⟩
      · exact .inl empty
    · rintro (empty | ⟨turns, ends⟩)
      · exact ⟨0, .inr empty⟩
      · exact ⟨turns, .inl ends⟩
  · have ends := extract_terminates nonempty inRoot entry position
    exact ⟨fun _ => .inl (Nat.ne_of_gt nonempty), fun _ => ⟨_, ends⟩⟩

/-- More fuel does not change what an extraction leaves. -/
theorem extract_mono {inRoot : Bool} {entry : Fat16Entry} {position fuel more : Nat}
    {final : Extraction} (enough : fuel ≤ more)
    (returned : extract volume inRoot fuel entry position = some final) :
    extract volume inRoot more entry position = some final := by
  obtain ⟨count, inTime, stops⟩ := whileLoop_eq_some_iff.mp returned
  exact whileLoop_eq_some_iff.mpr ⟨count, Nat.lt_of_lt_of_le inTime enough, stops⟩

end Returns

/-- What the search of `read` selects in the root directory. -/
theorem selectFile_root_iff {volume : Volume} {frame : Frame} {navigator : Navigator} {fuel : Nat}
    {key : List UInt8} {entry : Fat16Entry} {position : Nat}
    (inRoot : navigator.currentDirectoryOffset = volume.rootDirectoryOffset) :
    selectFile volume frame fuel key navigator = some (.done entry position) ↔
      (volume.image.entriesRead volume.bs.rootDirEntries.toNat volume.uninitialised
        (fseek volume.rootDirectoryOffset navigator.position)).find?
          (fun read => Matches frame key read.1) = some (entry, position) := by
  rw [← forEntries_returns_iff 0]
  unfold selectFile
  dsimp only
  rw [if_pos inRoot, inRoot, Option.map_eq_some_iff]
  constructor
  · rintro ⟨⟨flow, heldAfter⟩, looped, rfl⟩
    exact ⟨heldAfter, looped⟩
  · rintro ⟨heldAfter, looped⟩
    exact ⟨(_, heldAfter), looped, rfl⟩

/-- What the search of `read` selects can be extracted. -/
theorem extractable_of_selected {volume : Volume} {frame : Frame} {navigator : Navigator}
    (defined : volume.bs.sectorSize ≠ 0)
    (filesEnd : volume.bs.sectorsPerCluster ≠ 0 ∨
      navigator.currentDirectoryOffset ≠ volume.rootDirectoryOffset ∨
      RootFilesEnd volume frame navigator)
    {filename key : List UInt8} (given : namecmp filename = some key) {fuel : Nat}
    {entry : Fat16Entry} {position : Nat}
    (selected : selectFile volume frame fuel key navigator = some (.done entry position)) :
    Extractable volume (navigator.currentDirectoryOffset == volume.rootDirectoryOffset) entry
      position := by
  rcases Nat.eq_zero_or_pos (clusterSize volume.bs) with noBytes | nonempty
  · have noSectors : volume.bs.sectorsPerCluster = 0 := by
      rcases Nat.mul_eq_zero.mp noBytes with noSectors | undefined
      · exact UInt8.toNat_inj.mp noSectors
      · exact absurd (UInt16.toNat_inj.mp undefined) defined
    have inRoot : navigator.currentDirectoryOffset = volume.rootDirectoryOffset := by
      by_contra elsewhere
      unfold selectFile at selected
      dsimp only at selected
      rw [if_neg elsewhere] at selected
      apply walkChain_no_entries _ selected
      rw [Volume.entriesPerCluster, noBytes, Nat.zero_div]
    have ends := (filesEnd.resolve_left (not_not_intro noSectors)).resolve_left
      (not_not_intro inRoot)
    rw [beq_iff_eq.mpr inRoot]
    exact .inr (ends filename key given entry position ((selectFile_root_iff inRoot).mp selected))
  · exact .inl (Nat.ne_of_gt nonempty)

/-- `change_directory` with a short name divides in every directory. -/
theorem CommandsReturn.defined {volume : Volume} {frame : Frame} {navigator : Navigator}
    (returns : CommandsReturn volume frame navigator) : volume.bs.sectorSize ≠ 0 := by
  obtain ⟨fuel, after, moved⟩ := returns.change (some [])
  exact (divided_eq_some_iff.mp moved).1

/-- The three commands return exactly if sectors have bytes, the links of the current
directory come to an end mark or are not followed, and, where clusters have no bytes,
the files of the root directory are empty or their links end. -/
theorem commands_return_iff (volume : Volume) (frame : Frame) (navigator : Navigator) :
    CommandsReturn volume frame navigator ↔
      volume.bs.sectorSize ≠ 0 ∧ LinksEnd volume navigator ∧
        (volume.bs.sectorsPerCluster ≠ 0 ∨
          navigator.currentDirectoryOffset ≠ volume.rootDirectoryOffset ∨
          RootFilesEnd volume frame navigator) := by
  constructor
  · intro returns
    have defined := returns.defined
    have lists := returns.list
    simp only [listFilesDivided_of_defined defined] at lists
    refine ⟨defined, listFiles_returns_iff.mp lists, ?_⟩
    by_contra! failing
    obtain ⟨noSectors, inRoot, endless⟩ := failing
    apply endless
    intro filename key given entry position selected
    have named : ∀ name ∈ some filename, namecmp name ≠ none := by
      intro name member
      cases member
      simp [given]
    obtain ⟨fuel, result, returned⟩ := returns.read (some filename) named
    rw [readDivided_of_defined defined] at returned
    simp only [read, given, Option.bind_some, (selectFile_root_iff inRoot).mpr selected]
      at returned
    obtain ⟨final, extracted, -⟩ := Option.map_eq_some_iff.mp returned
    have extractable := extract_returns_iff.mp ⟨fuel, final, extracted⟩
    rw [beq_iff_eq.mpr inRoot] at extractable
    exact extractable.resolve_left (absurd (by simp [clusterSize, noSectors]))
  · rintro ⟨defined, linksEnd, filesEnd⟩
    constructor
    · simp only [listFilesDivided_of_defined defined]
      exact listFiles_returns_iff.mpr linksEnd
    · simp only [changeDirectoryDivided_of_defined defined]
      exact changeDirectory_of_linksEnd linksEnd
    intro filename named
    simp only [readDivided_of_defined defined]
    cases filename with
    | none => exact ⟨0, _, rfl⟩
    | some filename =>
        obtain ⟨key, given⟩ := Option.ne_none_iff_exists'.mp (named filename rfl)
        obtain ⟨fuel, flow, searched⟩ := selectFile_of_linksEnd frame linksEnd key
        cases flow with
        | next state position =>
            refine ⟨fuel, (.notFound, position), ?_⟩
            simp only [read, given, Option.bind_some, searched]
        | done entry position =>
            have extractable := extractable_of_selected defined filesEnd given searched
            obtain ⟨more, final, extracted⟩ := extract_returns_iff.mpr extractable
            refine ⟨max fuel more, (.extracted entry final.written, final.position), ?_⟩
            simp only [read, given, Option.bind_some,
              selectFile_mono (Nat.le_max_left fuel more) searched,
              extract_mono (Nat.le_max_right fuel more) extracted, Option.map_some]

/-- The link of a readable cluster does not depend on the position before. -/
theorem follow_fst {volume : Volume} {cluster : Nat} (readable : volume.Readable cluster)
    (length position : Nat) :
    (volume.follow length (cluster, position)).1 = volume.nextCluster cluster :=
  getNextCluster_fst readable

/-- A volume with the directory `A` in its root, whose only cluster is linked to itself. -/
def cyclicVolume : Volume :=
  mount (.ofPatches 3072
    [(454, [1]), (523, [0x00, 0x02, 1, 1, 0, 1, 16, 0]), (534, [1, 0]), (1028, [2, 0]),
      (1536, entryBytes [0x41] 0x10 2)]) fun _ => 0

/-- The prompt enters `A`, and the links from there never leave its cluster. -/
theorem cyclic_directory_entered :
    ∃ navigator, changeDirectory cyclicVolume 0 (some [0x41]) (.start cyclicVolume 0) =
        some navigator ∧ ¬ LinksEnd cyclicVolume navigator := by
  have entered : ∃ navigator ∈ changeDirectory cyclicVolume 0 (some [0x41])
      (.start cyclicVolume 0),
        navigator.currentDirectoryOffset ≠ cyclicVolume.rootDirectoryOffset ∧
        navigator.currentDirectoryEntry.startingCluster = 2 := by
    decide
  obtain ⟨navigator, moved, elsewhere, start⟩ := entered
  refine ⟨navigator, moved, fun linksEnd => ?_⟩
  obtain ⟨turns, ends⟩ := linksEnd.resolve_left elsewhere
  have readable : cyclicVolume.Readable 2 :=
    ⟨by decide, by decide, by decide, by decide⟩
  have linked : cyclicVolume.nextCluster 2 = 2 := by decide
  have stays (turns position : Nat) : ((cyclicVolume.follow
      (entrySize * cyclicVolume.entriesPerCluster))^[turns] (2, position)).1 = 2 := by
    induction turns generalizing position with
    | zero => rfl
    | succ turns inductionHypothesis =>
        have next := follow_fst readable (entrySize * cyclicVolume.entriesPerCluster) position
        rw [linked] at next
        rw [Function.iterate_succ_apply, ← Prod.mk.eta (p := cyclicVolume.follow _ _), next]
        exact inductionHypothesis _
  rw [start] at ends
  rw [show (2 : UInt16).toNat = 2 from rfl, stays] at ends
  exact absurd ends (by decide)

/-- In `A` the commands walk round and round. -/
theorem cyclic_directory_hangs :
    ¬ ∀ (image : Image) (uninitialised : Bytes) (frame : Frame) (navigator : Navigator),
      CommandsReturn (mount image uninitialised) frame navigator := by
  intro claimed
  obtain ⟨navigator, -, walksOn⟩ := cyclic_directory_entered
  have returns : CommandsReturn cyclicVolume ⟨[], []⟩ navigator := claimed _ _ _ navigator
  exact walksOn ((commands_return_iff _ _ _).mp returns).2.1

end Ivos.Fat
