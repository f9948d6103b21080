/-
Module: Ivos.Fat.TreeBrowser
Purpose: A browser that walks through the directory tree of a volume, and the prompt of
  `run` as one: what it prints depends on the line typed and the place in the tree only.
Trusted boundary: none
Main exports: Place, Displays, Moves, Browses, Sensible, StandsAt, shell_browses_tree
-/
import Ivos.Fat.RoundTrip
import Ivos.Fat.Shell

namespace Ivos.Fat

/-! ### Places in the tree -/

/-- Names and clusters of the directories on the way up, each in the one behind it. -/
inductive WayUp (volume : Volume) : List (List UInt8 × UInt16) → Prop where
  | root : WayUp volume []
  | child {stack : List (List UInt8 × UInt16)} {entry : Fat16Entry} (above : WayUp volume stack)
      (inside : volume.Subdirectory ((stack.head?.map Prod.snd).getD 0) entry) :
      WayUp volume ((entry.name, entry.startingCluster) :: stack)

/-- The prompt shows the directory of the root that one is in or below. -/
def promptAt (stack : List (List UInt8 × UInt16)) : List UInt8 :=
  promptOf (stack.getLast?.map Prod.fst).toList

theorem WayUp.tail {volume : Volume} {stack : List (List UInt8 × UInt16)}
    (wayUp : WayUp volume stack) : WayUp volume stack.tail := by
  cases wayUp with
  | root => exact .root
  | child above => exact above

/-- Where a browser is: the directories from here up to the root. -/
structure Place (volume : Volume) where
  stack : List (List UInt8 × UInt16)
  wayUp : WayUp volume stack

namespace Place

variable {volume : Volume}

def root : Place volume := ⟨[], .root⟩

/-- The cluster of the directory; 0 is the root. -/
def directory (place : Place volume) : UInt16 := (place.stack.head?.map Prod.snd).getD 0

def prompt (place : Place volume) : List UInt8 := promptAt place.stack

def enter (place : Place volume) (entry : Fat16Entry)
    (inside : volume.Subdirectory place.directory entry) : Place volume :=
  ⟨(entry.name, entry.startingCluster) :: place.stack, .child place.wayUp inside⟩

/-- The directory above; the root has none. -/
def leave (place : Place volume) : Place volume := ⟨place.stack.tail, place.wayUp.tail⟩

end Place

/-! ### What a browser does

A browser of a tree knows where it stands and the tree, and no bytes, offsets or clusters.
It says for each line what has to be printed and where one stands afterwards.
-/

/-- The entries of a directory. -/
def Volume.Contents (volume : Volume) (directory : UInt16) (entries : List Fat16Entry) : Prop :=
  if directory = 0 then entries = volume.rootEntries
  else ∃ clusters, volume.Chain directory.toNat clusters ∧
    entries = volume.directoryEntries clusters

/-- What is printed in a directory. -/
inductive Displays (volume : Volume) (directory : UInt16) : Command → Printed → Prop where
  | information : Displays volume directory .info
      (.information volume.partitionTable volume.volumeLabel volume.bs.sectorSize
        (usedLines volume.rootEntries))
  | listing {entries : List Fat16Entry} (contents : volume.Contents directory entries) :
      Displays volume directory .ls (.listing (usedLines entries))
  | noFilename : Displays volume directory (.read []) (.text ["Filename is empty"])
  | notFound {request : FileRequest} {entries : List Fat16Entry} (valid : request.Valid)
      (contents : volume.Contents directory entries)
      (missing : ∀ entry ∈ entries, ¬request.Names entry) :
      Displays volume directory (.read request.text) (.file .notFound)
  | file {request : FileRequest} {entries : List Fat16Entry} {entry : Fat16Entry}
      {chain : List Nat} (valid : request.Valid) (contents : volume.Contents directory entries)
      (found : entries.find? request.Names = some entry)
      (holds : volume.FileChain entry.startingCluster.toNat chain)
      (whole : entry.fileSize.toNat ≤ chain.length * clusterSize volume.bs) :
      Displays volume directory (.read request.text)
        (.file (.extracted entry ((chain.flatMap volume.clusterBytes).take entry.fileSize.toNat)))
  | tree {lines : List Line} (preorder : PreorderLines volume 1 volume.rootEntries lines) :
      Displays volume directory .tree (.tree (.heading :: lines))
  | help : Displays volume directory .help (.text helpLines)
  | unknown : Displays volume directory .unknown .nothing

/-- Where `cd` leads. -/
inductive Moves {volume : Volume} (place : Place volume) :
    List UInt8 → Printed → Place volume → Prop where
  | noName : Moves place [] (.text ["Directory name is empty"]) place
  | tooLong {name : List UInt8} (long : name.length > 8) :
      Moves place name (.text ["Directory name is too long"]) place
  | leave : Moves place parentName .nothing place.leave
  | enter {entry : Fat16Entry} (inside : volume.Subdirectory place.directory entry) :
      Moves place entry.name .nothing (place.enter entry inside)
  | stay (notRoot : place.directory ≠ 0) : Moves place [0x2E] .nothing place
  | missing {name : List UInt8}
      (none : ∀ entry, volume.Holds place.directory entry → ¬TakenFor (paddedName name) entry) :
      Moves place name .nothing place

/-- One line typed to a browser; none is a browser that has been left. -/
inductive Browses (volume : Volume) :
    Option (Place volume) → Call → Response → Option (Place volume) → Prop where
  | exit {place : Place volume} {call : Call} (leaves : parseLine call.typed = .exit) :
      Browses volume (some place) call ⟨place.prompt, .nothing⟩ none
  | displays {place : Place volume} {call : Call} {printed : Printed}
      (displayed : Displays volume place.directory (parseLine call.typed) printed) :
      Browses volume (some place) call ⟨place.prompt, printed⟩ (some place)
  | moves {place next : Place volume} {call : Call} {name : List UInt8} {printed : Printed}
      (isCd : parseLine call.typed = .cd name) (moved : Moves place name printed next) :
      Browses volume (some place) call ⟨place.prompt, printed⟩ (some next)

/-! ### Lines that make sense

The program answers as a browser does where its commands do what they are meant to.  `cd`
needs a name that can be told from the others.  `read` needs a name of at most 8 and 3
characters, in a directory whose names hold no NUL, and a file that its comparison does not
miss behind the name, with its content on the volume; a name that no file has is reported.
`tree` needs a volume that `print_tree` lists.  On the others it is left out: there its
recursion does not end.
-/

/-- The name of a directory that can be told: `..`, `.` below the root, a sub-directory, or
a name that no directory has. -/
inductive Tellable (volume : Volume) (directory : UInt16) : List UInt8 → Prop where
  | tooLong {name : List UInt8} (long : name.length > 8) : Tellable volume directory name
  | parent : Tellable volume directory parentName
  | self (notRoot : directory ≠ 0) : Tellable volume directory [0x2E]
  | child {entry : Fat16Entry} (inside : volume.Subdirectory directory entry) :
      Tellable volume directory entry.name
  | missing {name : List UInt8}
      (none : ∀ entry, volume.Holds directory entry → ¬TakenFor (paddedName name) entry) :
      Tellable volume directory name

/-- A file that the comparison of `read` passes and whose content is on the volume. -/
structure Presentable (volume : Volume) (frame : Frame) (entry : Fat16Entry) : Prop where
  passes : entry.PassesBehindName frame
  content : ∃ chain, volume.FileChain entry.startingCluster.toNat chain ∧
    entry.fileSize.toNat ≤ chain.length * clusterSize volume.bs

/-- A request by name in a directory whose names are filled up. -/
structure Requests (volume : Volume) (frame : Frame) (directory : UInt16)
    (request : FileRequest) : Prop where
  valid : request.Valid
  filled : ∀ entries, volume.Contents directory entries →
    ∀ entry ∈ entries, entry.firstByte = 0 ∨ 0 ∉ entry.filename ++ entry.ext
  presentable : ∀ entries, volume.Contents directory entries →
    ∀ entry, entries.find? request.Names = some entry → Presentable volume frame entry

/-- A command that a browser of the tree understands, in a directory. -/
def Understood (volume : Volume) (frame : Frame) (directory : UInt16) : Command → Prop
  | .cd name => name = [] ∨ Tellable volume directory name
  | .read filename =>
      filename = [] ∨ ∃ request : FileRequest, filename = request.text ∧
        Requests volume frame directory request
  | .tree => ListsExactly volume
  | .exit | .info | .ls | .help | .unknown => True

/-- A typed line with such a command. -/
def Sensible (volume : Volume) : Option Navigator → Call → Prop
  | none, _ => False
  | some navigator, call =>
      (0x0A ∉ call.typed ∧ 0 ∉ call.typed) ∧
        Understood volume call.frame navigator.currentDirectoryEntry.startingCluster
          (parseLine call.typed)

/-! ### The program as a browser -/

/-- The program is at a place of the tree. -/
structure AtPlace (volume : Volume) (navigator : Navigator) (place : Place volume) : Prop where
  located : Located volume navigator
  directory : navigator.currentDirectoryEntry.startingCluster = place.directory
  prompt : navigator.currentDirectory = place.prompt

/-- The program and a browser are at the same place, or have both been left. -/
def StandsAt (volume : Volume) : Option Navigator → Option (Place volume) → Prop
  | none, none => True
  | some navigator, some place => AtPlace volume navigator place
  | none, some _ => False
  | some _, none => False

section Browser

variable {volume : Volume} {navigator : Navigator} {place : Place volume}

/-- The position of the stream is no part of the place. -/
theorem AtPlace.moved (atPlace : AtPlace volume navigator place) (position : Nat) :
    AtPlace volume { navigator with position := position } place :=
  ⟨⟨atPlace.located.inTree, atPlace.located.offset, atPlace.located.prompt⟩, atPlace.directory,
    atPlace.prompt⟩

theorem atPlace_start (volume : Volume) (position : Nat) :
    AtPlace volume (.start volume position) .root :=
  ⟨.start volume position, rfl, rfl⟩

/-! ### Printing -/

/-- The contents of the directory are what the commands find in it. -/
theorem Located.contains (located : Located volume navigator) (tree : PlainTree volume)
    {entries : List Fat16Entry}
    (contents : volume.Contents navigator.currentDirectoryEntry.startingCluster entries) :
    volume.Contains navigator entries := by
  unfold Volume.Contains
  unfold Volume.Contents at contents
  simp only [located.inRoot_iff tree]
  split
  · rename_i isRoot
    rw [if_pos isRoot] at contents
    exact ⟨tree.wellFormed.root, contents⟩
  · rename_i notRoot
    rwa [if_neg notRoot] at contents

theorem Located.exists_contents (located : Located volume navigator) (tree : PlainTree volume) :
    ∃ entries, volume.Contents navigator.currentDirectoryEntry.startingCluster entries := by
  unfold Volume.Contents
  by_cases isRoot : navigator.currentDirectoryEntry.startingCluster = 0
  · exact ⟨_, by rw [if_pos isRoot]⟩
  · obtain ⟨clusters, chain⟩ := located.chain tree isRoot
    exact ⟨_, by rw [if_neg isRoot]; exact ⟨clusters, chain, rfl⟩⟩

theorem Located.displays_listing (located : Located volume navigator) (tree : PlainTree volume)
    {fuel finish : Nat} {lines : List EntryLine}
    (listed : listFiles volume fuel navigator = some (lines, finish)) :
    Displays volume navigator.currentDirectoryEntry.startingCluster .ls (.listing lines) := by
  obtain ⟨entries, contents⟩ := located.exists_contents tree
  have contains := located.contains tree contents
  unfold Volume.Contains at contains
  split at contains
  · rename_i inRoot
    obtain ⟨readable, rfl⟩ := contains
    obtain rfl := (lists_root readable inRoot lines).mp ⟨fuel, finish, listed⟩
    exact .listing contents
  · rename_i elsewhere
    obtain ⟨clusters, chain, rfl⟩ := contains
    obtain rfl := (lists_chain chain elsewhere lines).mp ⟨fuel, finish, listed⟩
    exact .listing contents

/-- `print_info` lists the root as `list_files` does there. -/
theorem printInfo_eq (volume : Volume) (position : Nat) :
    printInfo volume position =
      (listFiles volume 0 (.start volume position)).map fun (lines, finish) =>
        (.information volume.partitionTable volume.volumeLabel volume.bs.sectorSize lines,
          finish) := by
  unfold printInfo listFiles
  simp only [Navigator.start, if_true]
  cases forEntries volume listTurn volume.bs.rootDirEntries.toNat 0 volume.uninitialised
      (fseek volume.rootDirectoryOffset position) [] with
  | none => rfl
  | some result =>
      obtain ⟨flow, held⟩ := result
      cases flow with
      | next lines finish => rfl
      | done result finish => cases result

/-- It lists the used entries. -/
theorem printInfo_root (readable : volume.RootReadable) (position : Nat) :
    ∃ finish, printInfo volume position =
      some (.information volume.partitionTable volume.volumeLabel volume.bs.sectorSize
        (usedLines volume.rootEntries), finish) := by
  have atRoot : (Navigator.start volume position).currentDirectoryOffset =
      volume.rootDirectoryOffset := rfl
  obtain ⟨finish, listed⟩ := listFiles_root readable atRoot 0
  refine ⟨finish, ?_⟩
  rw [printInfo_eq, listed]
  rfl

/-- On a volume that `print_tree` lists, whatever it returns with is the pre-order. -/
theorem ListsExactly.preorder_of_run (lists : ListsExactly volume)
    (wellFormed : WellFormedVolume volume) {fuel position finish : Nat} {lines : List Line}
    (ran : printTree volume (fuel + 1) none (-1) position = some (.heading :: lines, finish)) :
    PreorderLines volume 1 volume.rootEntries lines := by
  obtain ⟨rest, same, pieces⟩ := printTree_root wellFormed.root ran
  cases same
  apply pieces.preorder
  · exact fun entry member => ⟨lists.root entry member, fun listed => listed.1.1⟩
  · intro directory member listed isDirectory start inner stop run
    obtain ⟨clusters, chain⟩ :=
      (wellFormed.subdirectories directory member listed isDirectory).chain
    refine ⟨clusters, chain, ?_⟩
    cases fuel with
    | zero => cases run
    | succ fuel =>
        have inside := printTree_subdirectory chain run
        apply inside.preorder
        · exact lists.shown directory member listed isDirectory clusters chain
        · intro entry found entryListed entryDirectory
          have isFile :=
            lists.flat directory member listed isDirectory clusters chain entry found entryListed
          simp [isFile] at entryDirectory

theorem ListsExactly.displays_tree (lists : ListsExactly volume)
    (wellFormed : WellFormedVolume volume) (directory : UInt16)
    {fuel position finish : Nat} {lines : List Line}
    (ran : printTree volume fuel none (-1) position = some (lines, finish)) :
    Displays volume directory .tree (.tree lines) := by
  cases fuel with
  | zero => cases ran
  | succ fuel =>
      obtain ⟨rest, rfl, -⟩ := printTree_root wellFormed.root ran
      exact .tree (lists.preorder_of_run wellFormed ran)

/-- The comparison of `read` finds the file that is requested. -/
theorem Requests.find?_matches {frame : Frame} {request : FileRequest} {entries : List Fat16Entry}
    (requests : Requests volume frame navigator.currentDirectoryEntry.startingCluster request)
    (contents : volume.Contents navigator.currentDirectoryEntry.startingCluster entries)
    (contains : volume.Contains navigator entries) :
    entries.find? (Matches frame (request.nameBytes ++ [0x20])) =
      entries.find? request.Names := by
  rw [find?_eq_find?_iff]
  · intro entry found
    have member := List.mem_of_find?_eq_some found
    have named : request.Names entry := by simpa using List.find?_some found
    rw [decide_eq_true_eq, matches_request_iff requests.valid contains member
      (requests.filled entries contents entry member)]
    exact ⟨named, (requests.presentable entries contents entry found).passes⟩
  · intro entry member matching
    rw [decide_eq_true_eq] at matching ⊢
    exact ((matches_request_iff requests.valid contains member
      (requests.filled entries contents entry member)).mp matching).1

theorem Located.displays_file (located : Located volume navigator) (tree : PlainTree volume)
    {frame : Frame} {request : FileRequest}
    (requests : Requests volume frame navigator.currentDirectoryEntry.startingCluster request)
    {fuel finish : Nat} {outcome : ReadOutcome}
    (ran : read volume frame fuel (some request.text) navigator = some (outcome, finish)) :
    Displays volume navigator.currentDirectoryEntry.startingCluster (.read request.text)
      (.file outcome) := by
  obtain ⟨entries, contents⟩ := located.exists_contents tree
  have contains := located.contains tree contents
  simp only [read, requests.valid.namecmp_text, Option.bind_some] at ran
  obtain ⟨flow, searched, ended⟩ := Option.bind_eq_some_iff.mp ran
  have selected := selectFile_selected contains searched
  rw [requests.find?_matches contents contains] at selected
  cases flow with
  | next state position =>
      cases ended
      apply Displays.notFound requests.valid contents
      simpa [Flow.selected, eq_comm (a := none)] using selected
  | done entry position =>
      obtain ⟨final, extracted, same⟩ := Option.map_eq_some_iff.mp ended
      cases same
      obtain ⟨-, chain, holds, whole⟩ := requests.presentable entries contents entry selected.symm
      have written : final.written =
          [] ++ (chain.flatMap volume.clusterBytes).take (entry.fileSize.toNat - 0) :=
        extraction_from holds (fun _ => rfl) whole extracted
      rw [written]
      exact .file requests.valid contents selected.symm holds whole

/-! ### Moving -/

theorem WayUp.pathTo {stack : List (List UInt8 × UInt16)} (wayUp : WayUp volume stack) :
    ∃ path, PathTo volume path ((stack.head?.map Prod.snd).getD 0) := by
  induction wayUp with
  | root => exact ⟨[], .root⟩
  | child above inside inductionHypothesis =>
      obtain ⟨path, reached⟩ := inductionHypothesis
      exact ⟨_, .child reached inside⟩

/-- Only the root has cluster 0. -/
theorem WayUp.eq_nil_iff {stack : List (List UInt8 × UInt16)} (wayUp : WayUp volume stack)
    (tree : PlainTree volume) : (stack.head?.map Prod.snd).getD 0 = 0 ↔ stack = [] := by
  cases wayUp with
  | root => exact iff_of_true rfl rfl
  | child above inside =>
      obtain ⟨path, reached⟩ := above.pathTo
      exact iff_of_false (reached.wellFormed tree.wellFormed inside).ne_zero (List.cons_ne_nil _ _)

/-- Into a sub-directory. -/
theorem AtPlace.enters (atPlace : AtPlace volume navigator place) (tree : PlainTree volume)
    {entry : Fat16Entry} (inside : volume.Subdirectory place.directory entry)
    (noNul : 0 ∉ entry.name) {fuel : Nat} {after : Navigator}
    (ran : changeDirectory volume fuel (some entry.name) navigator = some after) :
    ∃ next, Moves place entry.name .nothing next ∧ AtPlace volume after next := by
  rw [← atPlace.directory] at inside
  have moved := atPlace.located.enters tree inside noNul ran
  have entered := moved.inside
  rw [atPlace.directory] at entered
  refine ⟨place.enter _ entered, moved.name ▸ .enter entered,
    moved.located tree atPlace.located, rfl, ?_⟩
  have root := place.wayUp.eq_nil_iff tree
  have shown := moved.prompt
  rw [atPlace.directory, atPlace.prompt] at shown
  rw [shown]
  change _ = promptAt ((after.currentDirectoryEntry.name, _) :: place.stack)
  rw [moved.name]
  by_cases isRoot : place.directory = 0
  · rw [if_pos isRoot, root.mp isRoot]
    rfl
  · rw [if_neg isRoot]
    obtain ⟨first, rest, isStack⟩ := List.exists_cons_of_ne_nil (mt root.mpr isRoot)
    rw [Place.prompt, isStack]
    rfl

/-- Up, or nowhere from the root. -/
theorem AtPlace.leaves (atPlace : AtPlace volume navigator place) (tree : PlainTree volume)
    {fuel : Nat} {after : Navigator}
    (ran : changeDirectory volume fuel (some parentName) navigator = some after) :
    AtPlace volume after place.leave := by
  obtain ⟨stack, wayUp⟩ := place
  cases wayUp with
  | root =>
      obtain ⟨position, rfl⟩ := atPlace.located.stays tree atPlace.directory ran
      exact atPlace.moved position
  | @child stack entry above inside =>
      obtain ⟨path, reached⟩ := above.pathTo
      have leaves := atPlace.located.leaves tree reached inside atPlace.directory.symm ran
      have notRoot := (reached.wellFormed tree.wellFormed inside).ne_zero
      have below : navigator.currentDirectoryEntry.startingCluster ≠ 0 := by
        rw [atPlace.directory]
        exact notRoot
      refine ⟨leaves.located reached below atPlace.located, leaves.cluster, ?_⟩
      have top := above.eq_nil_iff tree
      rw [leaves.prompt, atPlace.prompt]
      by_cases isTop : stack = []
      · rw [if_pos (top.mpr isTop)]
        subst isTop
        have plain : 0x2F ∉ entry.name := fun inName =>
          (tree.names _ _ _ reached inside).1 ((List.rdropWhile_prefix _ _).subset inName)
        exact removeRightIncluding_promptOf [] plain
      · rw [if_neg (mt top.mp isTop)]
        obtain ⟨first, rest, rfl⟩ := List.exists_cons_of_ne_nil isTop
        rfl

/-- The search for `.` finds the directory it is in. -/
theorem PlainTree.self_found (tree : PlainTree volume) {path : List (List UInt8)}
    {parent : UInt16} {directory : Fat16Entry} (reached : PathTo volume path parent)
    (inside : volume.Subdirectory parent directory) {found : Fat16Entry}
    (held : volume.Holds directory.startingCluster found)
    (taken : TakenFor (paddedName [0x2E]) found) :
    found.startingCluster = directory.startingCluster := by
  have below := reached.wellFormed tree.wellFormed inside
  have notRoot := below.ne_zero
  have padded : paddedName [0x2E] = dotName 1 := by decide
  rw [takenFor_iff (by decide) (by decide) held.length_filename, padded] at taken
  obtain ⟨⟨used, isDirectory⟩, named⟩ := taken
  have isDot : found.IsDot := by
    by_contra other
    have listed : found.Listed := by
      refine ⟨⟨used, ?_⟩, other, fun isDotDot => ?_⟩
      · rw [Fat16Entry.firstByte, named]
        decide
      · exact absurd (named.symm.trans isDotDot.1) (by decide)
    exact (tree.names _ _ _ (.child reached inside) ⟨held, listed, isDirectory⟩).2.1 named
  cases below with
  | intro chain hasDot hasDotDot dots dotDots subdirectories =>
      unfold Volume.Holds at held
      rw [if_neg notRoot] at held
      obtain ⟨others, otherChain, member⟩ := held
      obtain rfl := chain.unique otherChain
      exact (dots found member isDot).2

/-- `.` leads to the directory it is in. -/
theorem AtPlace.stays (atPlace : AtPlace volume navigator place) (tree : PlainTree volume)
    (notRoot : place.directory ≠ 0) {fuel : Nat} {after : Navigator}
    (ran : changeDirectory volume fuel (some [0x2E]) navigator = some after) :
    AtPlace volume after place := by
  obtain ⟨stack, wayUp⟩ := place
  cases wayUp with
  | root => exact absurd rfl notRoot
  | @child stack entry above inside =>
      obtain ⟨path, reached⟩ := above.pathTo
      obtain ⟨result, searched, position, rfl⟩ := atPlace.located.searches tree (by decide) ran
      cases result with
      | none => exact atPlace.moved position
      | some found =>
          obtain ⟨held, taken⟩ := searched
          rw [atPlace.directory] at held
          have same : found.startingCluster = entry.startingCluster :=
            tree.self_found reached inside held taken
          have below : navigator.currentDirectoryEntry.startingCluster ≠ 0 := by
            rw [atPlace.directory]
            exact notRoot
          rw [beq_eq_false_iff_ne.mpr below]
          let after := enterDirectory volume false [0x2E] found
            { navigator with position := position }
          change AtPlace volume after _
          have entered : after.currentDirectoryEntry = found := (enterDirectory_entry ..).1
          have kept : after.currentDirectory = navigator.currentDirectory := by
            simp [after, enterDirectory, same.trans_ne notRoot]
          refine ⟨⟨⟨path ++ [entry.name], ?_⟩, ?_, ?_⟩, ?_, kept.trans atPlace.prompt⟩
          · rw [entered, same]
            exact .child reached inside
          · rw [entered]
            exact enterDirectory_offset fun inRoot => absurd inRoot Bool.false_ne_true
          · have prompt := atPlace.located.prompt
            rw [if_neg below] at prompt
            rw [entered, if_neg (same.trans_ne notRoot), kept]
            exact prompt
          · rw [entered, same]
            rfl

/-- A name that no directory has leads nowhere. -/
theorem AtPlace.misses (atPlace : AtPlace volume navigator place) (tree : PlainTree volume)
    {name : List UInt8} (short : name.length ≤ 8)
    (none : ∀ entry, volume.Holds place.directory entry → ¬TakenFor (paddedName name) entry)
    {fuel : Nat} {after : Navigator}
    (ran : changeDirectory volume fuel (some name) navigator = some after) :
    AtPlace volume after place := by
  obtain ⟨result, searched, position, rfl⟩ := atPlace.located.searches tree short ran
  rw [atPlace.directory] at searched
  cases result with
  | none => exact atPlace.moved position
  | some found => exact absurd searched.2 (none found searched.1)

theorem AtPlace.moves (atPlace : AtPlace volume navigator place) (tree : PlainTree volume)
    {name : List UInt8} (noNul : 0 ∉ name) (tellable : Tellable volume place.directory name)
    {fuel : Nat} {after : Navigator}
    (ran : changeDirectory volume fuel (some name) navigator = some after) :
    ∃ next, Moves place name
        (if name.length > 8 then .text ["Directory name is too long"] else .nothing) next ∧
      AtPlace volume after next := by
  by_cases long : name.length > 8
  · rw [changeDirectory, if_pos long] at ran
    cases ran
    rw [if_pos long]
    exact ⟨place, .tooLong long, atPlace⟩
  · rw [if_neg long]
    cases tellable with
    | tooLong tooLong => exact absurd tooLong long
    | parent => exact ⟨place.leave, .leave, atPlace.leaves tree ran⟩
    | self notRoot => exact ⟨place, .stay notRoot, atPlace.stays tree notRoot ran⟩
    | child inside => exact atPlace.enters tree inside noNul ran
    | missing none =>
        exact ⟨place, .missing none, atPlace.misses tree (Nat.le_of_not_lt long) none ran⟩

/-! ### Commands -/

/-- A command that is understood displays what a browser displays, or moves where it
moves. -/
theorem AtPlace.runs (atPlace : AtPlace volume navigator place) (tree : PlainTree volume)
    {frame : Frame} {fuel : Nat} {command : Command} {printed : Printed} {after : Navigator}
    (noNul : ∀ name, command = .cd name → 0 ∉ name)
    (understood : Understood volume frame place.directory command)
    (ran : runCommand volume frame fuel navigator command = some (printed, after)) :
    (Displays volume place.directory command printed ∧ AtPlace volume after place) ∨
      ∃ name next, command = .cd name ∧ Moves place name printed next ∧
        AtPlace volume after next := by
  have located := atPlace.located
  rw [← atPlace.directory] at understood
  cases command with
  | exit => cases ran
  | info =>
      obtain ⟨⟨shown, position⟩, informed, same⟩ := Option.map_eq_some_iff.mp ran
      cases same
      obtain ⟨finish, listing⟩ := printInfo_root tree.wellFormed.root navigator.position
      rw [listing] at informed
      cases informed
      exact .inl ⟨.information, atPlace.moved _⟩
  | ls =>
      obtain ⟨⟨lines, position⟩, listed, same⟩ := Option.map_eq_some_iff.mp ran
      cases same
      exact .inl ⟨atPlace.directory ▸ located.displays_listing tree listed,
        atPlace.moved position⟩
  | read filename =>
      by_cases empty : filename = []
      · rw [runCommand, if_pos empty] at ran
        cases ran
        exact .inl ⟨empty ▸ .noFilename, atPlace⟩
      · rw [runCommand, if_neg empty] at ran
        obtain ⟨⟨outcome, position⟩, found, same⟩ := Option.map_eq_some_iff.mp ran
        cases same
        obtain ⟨request, rfl, requests⟩ := understood.resolve_left empty
        exact .inl ⟨atPlace.directory ▸ located.displays_file tree requests found,
          atPlace.moved position⟩
  | cd name =>
      right
      by_cases empty : name = []
      · rw [runCommand, if_pos empty] at ran
        cases ran
        exact ⟨name, place, rfl, empty ▸ .noName, atPlace⟩
      · rw [runCommand, if_neg empty] at ran
        obtain ⟨changed, moved, same⟩ := Option.map_eq_some_iff.mp ran
        cases same
        have tellable := understood.resolve_left empty
        rw [atPlace.directory] at tellable
        obtain ⟨next, moves, there⟩ := atPlace.moves tree (noNul name rfl) tellable moved
        exact ⟨name, next, rfl, moves, there⟩
  | tree =>
      obtain ⟨⟨lines, position⟩, drawn, same⟩ := Option.map_eq_some_iff.mp ran
      cases same
      exact .inl ⟨understood.displays_tree tree.wellFormed _ drawn, atPlace.moved position⟩
  | help =>
      cases ran
      exact .inl ⟨.help, atPlace⟩
  | unknown =>
      cases ran
      exact .inl ⟨.unknown, atPlace⟩

/-- A file that can be presented can be extracted. -/
theorem Presentable.extractable {frame : Frame} {entry : Fat16Entry}
    (presentable : Presentable volume frame entry) (inRoot : Bool) (position : Nat) :
    Extractable volume inRoot entry position := by
  obtain ⟨-, chain, -, whole⟩ := presentable
  by_cases noBytes : clusterSize volume.bs = 0
  · rw [noBytes, Nat.mul_zero] at whole
    exact .inr (.inl (Nat.le_zero.mp whole))
  · exact .inl noBytes

theorem Located.read_returns (located : Located volume navigator) (tree : PlainTree volume)
    {frame : Frame} {request : FileRequest}
    (requests : Requests volume frame navigator.currentDirectoryEntry.startingCluster request) :
    ∃ fuel result, read volume frame fuel (some request.text) navigator = some result := by
  obtain ⟨entries, contents⟩ := located.exists_contents tree
  have contains := located.contains tree contents
  have given := requests.valid.namecmp_text
  obtain ⟨fuel, flow, searched, selected⟩ :=
    selectFile_returns frame contains (request.nameBytes ++ [0x20])
  rw [requests.find?_matches contents contains] at selected
  cases flow with
  | next state position =>
      refine ⟨fuel, (.notFound, position), ?_⟩
      simp only [read, given, Option.bind_some, searched]
  | done entry position =>
      have extractable :=
        (requests.presentable entries contents entry selected.symm).extractable
          (navigator.currentDirectoryOffset == volume.rootDirectoryOffset) position
      obtain ⟨more, final, extracted⟩ := extract_returns_iff.mpr extractable
      refine ⟨max fuel more, (.extracted entry final.written, final.position), ?_⟩
      simp only [read, given, Option.bind_some,
        selectFile_mono (Nat.le_max_left fuel more) searched,
        extract_mono (Nat.le_max_right fuel more) extracted, Option.map_some]

/-- A command that is understood returns. -/
theorem Located.command_returns (located : Located volume navigator) (tree : PlainTree volume)
    {frame : Frame} {command : Command} (goesOn : command ≠ .exit)
    (understood : Understood volume frame navigator.currentDirectoryEntry.startingCluster command) :
    ∃ fuel result, runCommand volume frame fuel navigator command = some result := by
  have linksEnd := located.linksEnd tree
  cases command with
  | exit => exact absurd rfl goesOn
  | info =>
      obtain ⟨finish, listing⟩ := printInfo_root tree.wellFormed.root navigator.position
      exact ⟨0, _, by rw [runCommand, listing, Option.map_some]⟩
  | ls =>
      obtain ⟨fuel, result, listing⟩ := listFiles_returns_iff.mpr linksEnd
      exact ⟨fuel, _, by rw [runCommand, listing, Option.map_some]⟩
  | read filename =>
      by_cases empty : filename = []
      · exact ⟨0, _, by rw [runCommand, if_pos empty]⟩
      · obtain ⟨request, rfl, requests⟩ := understood.resolve_left empty
        obtain ⟨fuel, result, found⟩ := located.read_returns tree requests
        exact ⟨fuel, _, by rw [runCommand, if_neg empty, found, Option.map_some]⟩
  | cd name =>
      by_cases empty : name = []
      · exact ⟨0, _, by rw [runCommand, if_pos empty]⟩
      · obtain ⟨fuel, changed, moved⟩ := changeDirectory_of_linksEnd linksEnd (some name)
        exact ⟨fuel, _, by rw [runCommand, if_neg empty, moved, Option.map_some]⟩
  | tree =>
      obtain ⟨fuel, lines, finish, drawn, -⟩ :=
        ListsExactly.printsPreorder understood tree.wellFormed navigator.position
      exact ⟨fuel, _, by rw [runCommand, drawn, Option.map_some]⟩
  | help => exact ⟨0, _, rfl⟩
  | unknown => exact ⟨0, _, rfl⟩

end Browser

/-! ### Sessions -/

/-- The argument of `cd` is the end of the line. -/
theorem suffix_of_parseLine {typed name : List UInt8} (isCd : parseLine typed = .cd name) :
    name <:+ typed := by
  unfold parseLine at isCd
  split at isCd
  · cases isCd
  · split at isCd
    · cases isCd
    · split at isCd
      · cases isCd
      · split at isCd
        · cases isCd
        · split at isCd
          · cases isCd
            exact List.drop_suffix 3 typed
          · split at isCd
            · cases isCd
            · split at isCd
              · cases isCd
              · cases isCd

/-- A turn of the shell, by the command that is typed. -/
theorem shell_call {volume : Volume} {navigator : Navigator} (call : Call)
    (noNewline : 0x0A ∉ call.typed) (noNul : 0 ∉ call.typed) :
    (shell volume).call call (some navigator) =
      if parseLine call.typed = .exit then some (⟨navigator.currentDirectory, .nothing⟩, none)
      else (runCommand volume call.frame call.fuel navigator (parseLine call.typed)).map
        fun (printed, next) => (⟨navigator.currentDirectory, printed⟩, some next) := by
  simp only [shell, dispatch_getline noNewline noNul]
  split
  · rename_i isExit
    rw [if_pos isExit]
  · rename_i goesOn
    rw [if_neg goesOn]

/-- A line that makes sense to a browser does in the program what it does there. -/
theorem shell_meets_browser (volume : Volume) (tree : PlainTree volume) :
    Meets (shell volume) (Sensible volume) (Browses volume) (StandsAt volume) where
  call := by
    intro state value call response after stands sensible called
    cases state with
    | none => exact absurd sensible id
    | some navigator =>
        cases value with
        | none => exact absurd stands id
        | some place =>
            have atPlace : AtPlace volume navigator place := stands
            obtain ⟨⟨noNewline, noNul⟩, understood⟩ := sensible
            rw [shell_call call noNewline noNul, atPlace.prompt] at called
            rw [atPlace.directory] at understood
            split at called
            · rename_i leaves
              cases called
              exact ⟨none, .exit leaves, trivial⟩
            · obtain ⟨⟨printed, next⟩, ran, same⟩ := Option.map_eq_some_iff.mp called
              cases same
              have argument (name : List UInt8) (isCd : parseLine call.typed = .cd name) :
                  0 ∉ name := fun member => noNul ((suffix_of_parseLine isCd).subset member)
              obtain ⟨displayed, still⟩ | ⟨name, there, isCd, moved, arrived⟩ :=
                atPlace.runs tree argument understood ran
              · exact ⟨some place, .displays displayed, still⟩
              · exact ⟨some there, .moves isCd moved, arrived⟩

/-- Where a line makes sense the program comes to the next prompt, or to its end. -/
theorem shell_returns (volume : Volume) (tree : PlainTree volume) {navigator : Navigator}
    (located : Located volume navigator) {call : Call}
    (sensible : Sensible volume (some navigator) call) :
    ∃ fuel result, (shell volume).call { call with fuel := fuel } (some navigator) =
      some result := by
  obtain ⟨⟨noNewline, noNul⟩, understood⟩ := sensible
  by_cases isExit : parseLine call.typed = .exit
  · refine ⟨0, (⟨navigator.currentDirectory, .nothing⟩, none), ?_⟩
    rw [shell_call { call with fuel := 0 } noNewline noNul, if_pos isExit]
  · obtain ⟨fuel, result, ran⟩ := located.command_returns tree isExit understood
    refine ⟨fuel, (⟨navigator.currentDirectory, result.1⟩, some result.2), ?_⟩
    rw [shell_call { call with fuel := fuel } noNewline noNul, if_neg isExit, ran]
    rfl

/-- On a volume whose directories form a tree, the prompt is a browser of that tree.
Whatever lines a user who knows the tree has typed, in any number and order, the program
has shown what a browser shows, whose answers depend on its place in the tree and the line
typed only, and it stands where the browser stands; and whatever is typed next, it comes
back with an answer. -/
theorem shell_browses_tree (volume : Volume) (position : Nat) (tree : PlainTree volume)
    {calls : List Call} {responses : List Response} {final : Option Navigator}
    (sensible : (shell volume).Possible (Sensible volume) calls
      (some (.start volume position)))
    (ran : (shell volume).run calls (some (.start volume position)) = some (responses, final)) :
    (∃ place, SpecifiedRun (Browses volume) (some .root) calls responses place ∧
      StandsAt volume final place) ∧
    ∀ call, Sensible volume final call →
      ∃ fuel result, (shell volume).call { call with fuel := fuel } final = some result := by
  have start : StandsAt volume (some (.start volume position)) (some .root) :=
    atPlace_start volume position
  obtain ⟨place, browsed, stands⟩ := (shell_meets_browser volume tree).run start sensible ran
  refine ⟨⟨place, browsed, stands⟩, fun call next => ?_⟩
  cases final with
  | none => exact absurd next id
  | some navigator =>
      cases place with
      | none => exact absurd stands id
      | some place => exact shell_returns volume tree stands.located next

/-! Down into `/A/B` and a look around there. -/

/-- Nothing stands behind the line and the locals. -/
def typing (line : String) : Call := ⟨characters line, [], ⟨[], []⟩, 2⟩

/-- Two levels down and a listing. -/
def downAndList : List Call := [typing "cd A", typing "cd B", typing "ls"]

theorem typing_sensible {volume : Volume} {navigator : Navigator} {line : String}
    (plain : 0x0A ∉ characters line ∧ 0 ∉ characters line)
    (understood : Understood volume ⟨[], []⟩ navigator.currentDirectoryEntry.startingCluster
      (parseLine (characters line))) :
    Sensible volume (some navigator) (typing line) :=
  ⟨plain, understood⟩

theorem downAndList_sensible : (shell nestedVolume).Possible (Sensible nestedVolume) downAndList
    (some (.start nestedVolume 0)) := by
  obtain ⟨⟨top, topInside, topName, -⟩, bottom, bottomInside, bottomName, -⟩ := nested_held
  obtain ⟨answer, middle, first, atTop⟩ : ∃ answer middle,
      (shell nestedVolume).call (typing "cd A") (some (.start nestedVolume 0)) =
        some (answer, some middle) ∧ middle.currentDirectoryEntry.startingCluster = 2 :=
    ⟨_, _, rfl, by decide⟩
  have toTop : Tellable nestedVolume 0 [0x41] := topName ▸ .child topInside
  have toBottom : Tellable nestedVolume 2 [0x42] := bottomName ▸ .child bottomInside
  refine ⟨typing_sensible (by decide) (.inr toTop), fun response next called => ?_⟩
  rw [first] at called
  cases called
  refine ⟨typing_sensible (by decide) (.inr (atTop ▸ toBottom)), fun response next called => ?_⟩
  rw [shell_call (typing "cd B") (by decide) (by decide), if_neg (by decide)] at called
  obtain ⟨⟨printed, navigator⟩, -, same⟩ := Option.map_eq_some_iff.mp called
  cases same
  exact ⟨typing_sensible (by decide) trivial, fun _ _ _ => trivial⟩

theorem shell_browses_tree_nested : ∃ responses final,
    (shell nestedVolume).run downAndList (some (.start nestedVolume 0)) =
        some (responses, final) ∧
      (∃ place, SpecifiedRun (Browses nestedVolume) (some .root) downAndList responses place ∧
        StandsAt nestedVolume final place) ∧
      ∀ call, Sensible nestedVolume final call →
        ∃ fuel result, (shell nestedVolume).call { call with fuel := fuel } final =
          some result := by
  have returns : ((shell nestedVolume).run downAndList
      (some (.start nestedVolume 0))).isSome = true := by
    decide
  obtain ⟨⟨responses, final⟩, ran⟩ := Option.isSome_iff_exists.mp returns
  exact ⟨responses, final, ran,
    shell_browses_tree nestedVolume 0 nested_plainTree downAndList_sensible ran⟩

end Ivos.Fat
