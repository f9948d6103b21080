/-
Module: Ivos.Fat.TreeListing
Purpose: `print_tree`, the well-formed directory trees, and when the listing is
  the pre-order of the tree.
Trusted boundary: none
Main exports: printTree, Listed, WellFormedDirectory, Preorder, PrintsPreorder,
  prints_preorder_iff, nested_volume_never_listed
-/
import Ivos.Fat.Directory
import Mathlib.Data.List.Forall2

namespace Ivos.Fat

/-! ### print_tree

`print_tree` calls itself for every directory it meets and reads on afterwards from where
the call left the stream, which it restores by a seek computed from the index.  `fuel`
bounds the depth of the calls and the turns of each loop; the C stack is not bounded.  As
with the loops, `none` means only that the bound was too small.
-/

/-- What one `printf` prints. -/
inductive Line where
  /-- `/root` -/
  | heading
  /-- The name of an entry behind `indent` bars. -/
  | entry (indent : Nat) (entry : Fat16Entry)
deriving Repr, DecidableEq

section PrintTree

variable (printTree : Fat16Entry → Nat → Option (List Line × Nat))

/-- The body of the loop over the root directory. -/
def rootTurn (rootDirectoryOffset : Int) (index : Nat) (entry : Fat16Entry) (position : Nat)
    (lines : List Line) : Option (Flow (List Line) Empty) :=
  if entry.firstByte ≠ 0 then
    let lines := lines ++ [.entry 1 entry]
    if entry.isDirectory then
      match printTree entry position with
      | none => none
      | some (inner, position) =>
          some (.next (lines ++ inner)
            (fseek (rootDirectoryOffset + (index + 1) * entrySize) position))
    else some (.next lines position)
  else some (.next lines position)

/-- The body of the loop over a cluster of a sub-directory. -/
def subdirectoryTurn (directory : Fat16Entry) (depth clusterOffset : Int) (index : Nat)
    (entry : Fat16Entry) (position : Nat) (lines : List Line) :
    Option (Flow (List Line) Empty) :=
  if entry.firstByte ≠ 0 ∧ entry.startingCluster ≠ directory.startingCluster then
    if entry.isDirectory ∧ entry.startingCluster = 0 then some (.next lines position)
    else
      let lines := lines ++ [.entry (depth.toNat + 1) entry]
      if entry.isDirectory ∧ entry.startingCluster ≠ 0 then
        match printTree entry position with
        | none => none
        | some (inner, position) =>
            some (.next (lines ++ inner)
              (fseek (clusterOffset + (index + 1) * entrySize) position))
      else some (.next lines position)
  else some (.next lines position)

end PrintTree

/-- `print_tree`: the lines printed and the position left.  `fuel` bounds the
depth of the recursion and the turns of each `while` loop. -/
def printTree (volume : Volume) :
    Nat → Option Fat16Entry → Int → Nat → Option (List Line × Nat)
  | 0, _, _, _ => none
  | fuel + 1, directory, depth, position =>
      let depth := depth + 1
      let recurse (entry : Fat16Entry) (position : Nat) :=
        printTree volume fuel (some entry) depth position
      match directory with
      | none =>
          match forEntries volume (rootTurn recurse volume.rootDirectoryOffset)
              volume.bs.rootDirEntries.toNat 0 volume.uninitialised
              (fseek volume.rootDirectoryOffset position) [.heading] with
          | some (.next lines position, _) => some (lines, position)
          | _ => none
      | some directory =>
          match walkChain volume (subdirectoryTurn recurse directory depth) (fuel + 1)
              directory.startingCluster.toNat volume.uninitialised position [] with
          | some (.next lines position) => some (lines, position)
          | _ => none

/-! ### Directory trees

The other side of the comparison is a finite tree of directories, by the rules of FAT16, and
the pre-order of the entries that a user is to see of it.
-/

/-- The name of `.`, or of `..`, padded with spaces. -/
def dotName (dots : Nat) : List UInt8 :=
  List.replicate dots 0x2E ++ List.replicate (8 - dots) 0x20

namespace Fat16Entry

/-- `.` -/
def IsDot (entry : Fat16Entry) : Prop :=
  entry.filename = dotName 1 ∧ entry.ext = List.replicate 3 0x20

/-- `..` -/
def IsDotDot (entry : Fat16Entry) : Prop :=
  entry.filename = dotName 2 ∧ entry.ext = List.replicate 3 0x20

/-- In use: neither never used nor deleted. -/
def InUse (entry : Fat16Entry) : Prop :=
  entry.firstByte ≠ 0 ∧ entry.firstByte ≠ 0xE5

/-- What a listing of the tree is to show. -/
def Listed (entry : Fat16Entry) : Prop :=
  entry.InUse ∧ ¬ entry.IsDot ∧ ¬ entry.IsDotDot

instance (entry : Fat16Entry) : Decidable entry.IsDot :=
  inferInstanceAs (Decidable (_ ∧ _))

instance (entry : Fat16Entry) : Decidable entry.IsDotDot :=
  inferInstanceAs (Decidable (_ ∧ _))

instance (entry : Fat16Entry) : Decidable entry.InUse :=
  inferInstanceAs (Decidable (_ ∧ _))

instance (entry : Fat16Entry) : Decidable entry.Listed :=
  inferInstanceAs (Decidable (_ ∧ _))

/-- What `print_tree` shows of a directory that starts at the cluster `self`. -/
def ShownIn (self : UInt16) (entry : Fat16Entry) : Prop :=
  entry.firstByte ≠ 0 ∧ entry.startingCluster ≠ self ∧
    ¬ (entry.isDirectory ∧ entry.startingCluster = 0)

instance (self : UInt16) (entry : Fat16Entry) : Decidable (entry.ShownIn self) :=
  inferInstanceAs (Decidable (_ ∧ _))

end Fat16Entry

/-- A sub-directory at the cluster `self` of the directory at `parent` (0 for the
root) and everything below it: a chain up to the end mark, `.` and `..` with the
clusters they are to have, and well-formed sub-directories.  Being inductive it
is a finite tree. -/
inductive WellFormedDirectory (volume : Volume) : UInt16 → UInt16 → Prop where
  | intro {self parent : UInt16} {clusters : List Nat}
      (chain : volume.Chain self.toNat clusters)
      (hasDot : ∃ entry ∈ volume.directoryEntries clusters, entry.IsDot)
      (hasDotDot : ∃ entry ∈ volume.directoryEntries clusters, entry.IsDotDot)
      (dot : ∀ entry ∈ volume.directoryEntries clusters, entry.IsDot →
        entry.isDirectory ∧ entry.startingCluster = self)
      (dotDot : ∀ entry ∈ volume.directoryEntries clusters, entry.IsDotDot →
        entry.isDirectory ∧ entry.startingCluster = parent)
      (subdirectories : ∀ entry ∈ volume.directoryEntries clusters, entry.Listed →
        entry.isDirectory → WellFormedDirectory volume entry.startingCluster self) :
      WellFormedDirectory volume self parent

/-- The root directory and the trees below it. -/
structure WellFormedVolume (volume : Volume) : Prop where
  root : volume.RootReadable
  subdirectories : ∀ entry ∈ volume.rootEntries, entry.Listed → entry.isDirectory →
    WellFormedDirectory volume entry.startingCluster 0

/-- The pre-order of the listed entries of a directory and of everything below. -/
inductive PreorderLines (volume : Volume) : Nat → List Fat16Entry → List Line → Prop where
  | nil {indent : Nat} : PreorderLines volume indent [] []
  | omitted {indent : Nat} {entry : Fat16Entry} {entries : List Fat16Entry} {lines : List Line}
      (unlisted : ¬ entry.Listed) (rest : PreorderLines volume indent entries lines) :
      PreorderLines volume indent (entry :: entries) lines
  | file {indent : Nat} {entry : Fat16Entry} {entries : List Fat16Entry} {lines : List Line}
      (listed : entry.Listed) (isFile : entry.isDirectory = false)
      (rest : PreorderLines volume indent entries lines) :
      PreorderLines volume indent (entry :: entries) (.entry indent entry :: lines)
  | directory {indent : Nat} {entry : Fat16Entry} {entries : List Fat16Entry}
      {clusters : List Nat} {inner lines : List Line}
      (listed : entry.Listed) (isDirectory : entry.isDirectory = true)
      (chain : volume.Chain entry.startingCluster.toNat clusters)
      (below : PreorderLines volume (indent + 1) (volume.directoryEntries clusters) inner)
      (rest : PreorderLines volume indent entries lines) :
      PreorderLines volume indent (entry :: entries) (.entry indent entry :: (inner ++ lines))

/-- `print_tree(NULL, -1, ...)`, called at any position of the stream, ends and
prints the heading and the pre-order of the tree. -/
def PrintsPreorder (volume : Volume) : Prop :=
  ∀ position, ∃ fuel lines finish, printTree volume fuel none (-1) position =
    some (.heading :: lines, finish) ∧ PreorderLines volume 1 volume.rootEntries lines

/-! ### What a finished run has printed -/

/-- What `print_tree` prints for one entry of a directory in which it shows the
entries that are `shown`. -/
inductive Piece (volume : Volume) (fuel : Nat) (depth : Int) (shown : Fat16Entry → Prop) :
    Fat16Entry → List Line → Prop where
  | hidden {entry : Fat16Entry} (isHidden : ¬ shown entry) :
      Piece volume fuel depth shown entry []
  | file {entry : Fat16Entry} (isShown : shown entry) (isFile : entry.isDirectory = false) :
      Piece volume fuel depth shown entry [.entry (depth.toNat + 1) entry]
  | directory {entry : Fat16Entry} {position finish : Nat} {inner : List Line}
      (isShown : shown entry) (isDirectory : entry.isDirectory = true)
      (ran : printTree volume fuel (some entry) depth position = some (inner, finish)) :
      Piece volume fuel depth shown entry (.entry (depth.toNat + 1) entry :: inner)

variable {volume : Volume}

/-- The entries consumed so far have been printed piece by piece. -/
def Pieces (volume : Volume) (fuel : Nat) (depth : Int) (shown : Fat16Entry → Prop)
    (entries : List Fat16Entry) (lines : List Line) : Prop :=
  ∃ pieces, List.Forall₂ (Piece volume fuel depth shown) entries pieces ∧
    lines = pieces.flatten

theorem Pieces.nil {fuel : Nat} {depth : Int} {shown : Fat16Entry → Prop} :
    Pieces volume fuel depth shown [] [] :=
  ⟨[], .nil, rfl⟩

theorem Pieces.snoc {fuel : Nat} {depth : Int} {shown : Fat16Entry → Prop}
    {entries : List Fat16Entry} {entry : Fat16Entry} {lines piece : List Line}
    (pieces : Pieces volume fuel depth shown entries lines)
    (last : Piece volume fuel depth shown entry piece) :
    Pieces volume fuel depth shown (entries ++ [entry]) (lines ++ piece) := by
  rcases pieces with ⟨pieces, each, rfl⟩
  exact ⟨pieces ++ [piece], List.rel_append each (.cons last .nil), by simp⟩

/-- The seek after a recursive call goes back behind the entry. -/
theorem fseek_behind {offset : Int} (nonneg : 0 ≤ offset) (index position : Nat) :
    fseek (offset + (index + 1) * entrySize) position =
      offset.toNat + entrySize * (index + 1) := by
  have nonnegTurn : (0 : Int) ≤ (index + 1) * entrySize := by positivity
  unfold fseek
  rw [if_pos (by omega), Int.toNat_add nonneg nonnegTurn, Nat.mul_comm]
  rfl

theorem subdirectoryTurn_next {fuel : Nat} {directory entry : Fat16Entry} {depth offset : Int}
    {index position : Nat} {before after : List Line} (nonneg : 0 ≤ offset)
    (turned : subdirectoryTurn
      (fun entry position => printTree volume fuel (some entry) depth position) directory depth
      offset index entry (offset.toNat + entrySize * (index + 1)) before =
        some (.next after position)) :
    position = offset.toNat + entrySize * (index + 1) ∧
      ∃ piece, Piece volume fuel depth (Fat16Entry.ShownIn directory.startingCluster) entry piece ∧
        after = before ++ piece := by
  unfold subdirectoryTurn at turned
  split at turned
  · rename_i tested
    split at turned
    · rename_i toRoot
      cases turned
      exact ⟨rfl, [], .hidden fun isShown => isShown.2.2 toRoot, by simp⟩
    · rename_i notToRoot
      have isShown : entry.ShownIn directory.startingCluster := ⟨tested.1, tested.2, notToRoot⟩
      dsimp only at turned
      split at turned
      · rename_i descends
        split at turned
        · cases turned
        · rename_i inner finish ran
          cases turned
          exact ⟨fseek_behind nonneg .., _, .directory isShown descends.1 ran, by simp⟩
      · rename_i notDescends
        cases turned
        have isFile : entry.isDirectory = false := by
          cases isDirectory : entry.isDirectory with
          | false => rfl
          | true =>
              exact absurd ⟨isDirectory, fun zero => notToRoot ⟨isDirectory, zero⟩⟩ notDescends
        exact ⟨rfl, _, .file isShown isFile, rfl⟩
  · rename_i untested
    cases turned
    exact ⟨rfl, [], .hidden fun isShown => untested ⟨isShown.1, isShown.2.1⟩, by simp⟩

theorem rootTurn_next {fuel : Nat} {entry : Fat16Entry} {offset : Int}
    {index position : Nat} {before after : List Line} (nonneg : 0 ≤ offset)
    (turned : rootTurn (fun entry position => printTree volume fuel (some entry) 0 position)
      offset index entry (offset.toNat + entrySize * (index + 1)) before =
        some (.next after position)) :
    position = offset.toNat + entrySize * (index + 1) ∧
      ∃ piece, Piece volume fuel 0 (fun entry => entry.firstByte ≠ 0) entry piece ∧
        after = before ++ piece := by
  unfold rootTurn at turned
  split at turned
  · rename_i isShown
    dsimp only at turned
    split at turned
    · rename_i isDirectory
      split at turned
      · cases turned
      · rename_i inner finish ran
        cases turned
        exact ⟨fseek_behind nonneg .., _, .directory isShown isDirectory ran, by simp⟩
    · rename_i isFile
      cases turned
      exact ⟨rfl, _, .file isShown (by simpa using isFile), rfl⟩
  · rename_i isHidden
    cases turned
    exact ⟨rfl, [], .hidden isHidden, by simp⟩

/-- A finished run on a sub-directory has printed its entries piece by piece. -/
theorem printTree_subdirectory {fuel : Nat} {directory : Fat16Entry} {depth : Int}
    {position finish : Nat} {lines : List Line} {clusters : List Nat}
    (chain : volume.Chain directory.startingCluster.toNat clusters)
    (ran : printTree volume (fuel + 1) (some directory) depth position = some (lines, finish)) :
    Pieces volume fuel (depth + 1) (Fat16Entry.ShownIn directory.startingCluster)
      (volume.directoryEntries clusters) lines := by
  unfold printTree at ran
  dsimp only at ran
  split at ran
  · rename_i printed stop walked
    cases ran
    apply walkChain_rule (Pieces volume fuel (depth + 1)
      (Fat16Entry.ShownIn directory.startingCluster)) _ chain Pieces.nil walked
    intro offset consumed index entry before after position nonneg pieces turned
    rcases subdirectoryTurn_next nonneg turned with ⟨back, piece, printed, rfl⟩
    exact ⟨back, pieces.snoc printed⟩
  · cases ran

/-- A finished run on the root has printed the heading and its entries piece by
piece. -/
theorem printTree_root {fuel position finish : Nat} {lines : List Line}
    (readable : volume.RootReadable)
    (ran : printTree volume (fuel + 1) none (-1) position = some (lines, finish)) :
    ∃ rest, lines = .heading :: rest ∧
      Pieces volume fuel 0 (fun entry => entry.firstByte ≠ 0) volume.rootEntries rest := by
  unfold printTree at ran
  dsimp only at ran
  split at ran
  · rename_i printed stop held looped
    cases ran
    rw [readable.sought] at looped
    have whole := forEntries_rule
      (fun entries lines => ∃ rest, lines = .heading :: rest ∧
        Pieces volume fuel 0 (fun entry => entry.firstByte ≠ 0) entries rest)
      (fun consumed index entry before after position pieces turned => by
        rcases pieces with ⟨rest, rfl, pieces⟩
        rcases rootTurn_next readable.offset turned with ⟨back, piece, printed, rfl⟩
        exact ⟨back, rest ++ piece, rfl, pieces.snoc printed⟩)
      readable.entriesInside ⟨[], rfl, Pieces.nil⟩ looped
    exact whole.2
  · cases ran

/-! ### When a run finishes -/

/-- A turn on an entry of a sub-directory goes on when the run on that entry, if there
is one, finishes. -/
theorem subdirectoryTurn_total {fuel : Nat} {directory entry : Fat16Entry} {depth offset : Int}
    (nonneg : 0 ≤ offset)
    (below : entry.ShownIn directory.startingCluster → entry.isDirectory →
      ∀ position, ∃ inner finish, printTree volume fuel (some entry) depth position =
        some (inner, finish)) (index : Nat) (lines : List Line) :
    ∃ after, subdirectoryTurn
      (fun entry position => printTree volume fuel (some entry) depth position) directory depth
      offset index entry (offset.toNat + entrySize * (index + 1)) lines =
        some (.next after (offset.toNat + entrySize * (index + 1))) := by
  unfold subdirectoryTurn
  split
  · rename_i tested
    split
    · exact ⟨lines, rfl⟩
    · rename_i notToRoot
      dsimp only
      split
      · rename_i descends
        obtain ⟨inner, stop, ran⟩ := below ⟨tested.1, tested.2, notToRoot⟩ descends.1
          (offset.toNat + entrySize * (index + 1))
        rw [ran]
        exact ⟨_, congrArg some (congrArg _ (fseek_behind nonneg ..))⟩
      · exact ⟨_, rfl⟩
  · exact ⟨lines, rfl⟩

/-- A run on a sub-directory finishes when the runs on the directories it shows
do, wherever they start. -/
theorem printTree_subdirectory_total {fuel : Nat} {directory : Fat16Entry} {depth : Int}
    {clusters : List Nat} (chain : volume.Chain directory.startingCluster.toNat clusters)
    (enough : clusters.length ≤ fuel)
    (below : ∀ entry ∈ volume.directoryEntries clusters,
      entry.ShownIn directory.startingCluster → entry.isDirectory →
        ∀ position, ∃ inner finish, printTree volume fuel (some entry) (depth + 1) position =
          some (inner, finish)) (position : Nat) :
    ∃ lines finish, printTree volume (fuel + 1) (some directory) depth position =
      some (lines, finish) := by
  obtain ⟨lines, finish, walked⟩ := walkChain_total chain
    (fun _ nonneg index entry member lines =>
      subdirectoryTurn_total nonneg (below entry member) index lines)
    (Nat.lt_succ_of_le enough) volume.uninitialised position []
  unfold printTree
  dsimp only
  rw [walked]
  exact ⟨lines, finish, rfl⟩

/-- A run on the root finishes when the runs on its directories do. -/
theorem printTree_root_total {fuel : Nat} (readable : volume.RootReadable)
    (below : ∀ entry ∈ volume.rootEntries, entry.firstByte ≠ 0 → entry.isDirectory →
      ∀ position, ∃ inner finish, printTree volume fuel (some entry) 0 position =
        some (inner, finish)) (position : Nat) :
    ∃ lines finish, printTree volume (fuel + 1) none (-1) position = some (lines, finish) := by
  have turn (index : Nat) (entry : Fat16Entry) (member : entry ∈ volume.rootEntries)
      (lines : List Line) :
      ∃ after, rootTurn (fun entry position => printTree volume fuel (some entry) 0 position)
        volume.rootDirectoryOffset index entry
        (volume.rootDirectoryOffset.toNat + entrySize * (index + 1)) lines =
          some (.next after (volume.rootDirectoryOffset.toNat + entrySize * (index + 1))) := by
    unfold rootTurn
    split
    · rename_i isShown
      dsimp only
      split
      · rename_i isDirectory
        obtain ⟨inner, stop, ran⟩ := below entry member isShown isDirectory
          (volume.rootDirectoryOffset.toNat + entrySize * (index + 1))
        rw [ran]
        exact ⟨_, congrArg some (congrArg _ (fseek_behind readable.offset ..))⟩
      · exact ⟨_, rfl⟩
    · exact ⟨lines, rfl⟩
  have looped : ∃ after held, forEntries volume
      (rootTurn (fun entry position => printTree volume fuel (some entry) 0 position)
        volume.rootDirectoryOffset) volume.bs.rootDirEntries.toNat 0 volume.uninitialised
      (volume.rootDirectoryOffset.toNat + entrySize * 0) [.heading] =
        some (.next after (volume.rootDirectoryOffset.toNat +
          entrySize * (0 + volume.bs.rootDirEntries.toNat)), held) := by
    apply forEntries_total
    · exact readable.entriesInside
    · exact turn
  obtain ⟨lines, held, looped⟩ := looped
  unfold printTree
  simp only [readable.sought]
  rw [show (-1 : Int) + 1 = 0 from rfl, looped]
  exact ⟨lines, _, rfl⟩

/-! ### Pieces beside the pre-order -/

theorem Pieces.mem {fuel : Nat} {depth : Int} {shown : Fat16Entry → Prop}
    {entries : List Fat16Entry} {entry : Fat16Entry} {lines : List Line}
    (pieces : Pieces volume fuel depth shown entries lines) (member : entry ∈ entries) :
    ∃ piece, Piece volume fuel depth shown entry piece ∧ ∀ line ∈ piece, line ∈ lines := by
  rcases pieces with ⟨pieces, each, rfl⟩
  induction each with
  | nil => cases member
  | @cons first piece entries pieces printed each inductionHypothesis =>
      rcases List.mem_cons.mp member with rfl | later
      · exact ⟨piece, printed, fun line isIn => by simp [isIn]⟩
      · obtain ⟨found, foundPrinted, contained⟩ := inductionHypothesis later
        exact ⟨found, foundPrinted, fun line isIn => by
          rw [List.flatten_cons]
          exact List.mem_append_right _ (contained line isIn)⟩

theorem PreorderLines.listed {indent : Nat} {entries : List Fat16Entry} {lines : List Line}
    (preorder : PreorderLines volume indent entries lines) :
    ∀ line ∈ lines, ∃ at_ entry, line = .entry at_ entry ∧ entry.Listed := by
  induction preorder with
  | nil => simp
  | omitted unlisted rest inductionHypothesis => exact inductionHypothesis
  | file listed isFile rest inductionHypothesis =>
      intro line member
      rcases List.mem_cons.mp member with rfl | later
      · exact ⟨_, _, rfl, listed⟩
      · exact inductionHypothesis line later
  | directory listed isDirectory chain below rest belowHypothesis restHypothesis =>
      intro line member
      rcases List.mem_cons.mp member with rfl | later
      · exact ⟨_, _, rfl, listed⟩
      · rcases List.mem_append.mp later with inner | outer
        · exact belowHypothesis line inner
        · exact restHypothesis line outer

/-- What is due for one entry in the pre-order. -/
inductive Due (volume : Volume) (indent : Nat) : Fat16Entry → List Line → Prop where
  | omitted {entry : Fat16Entry} (unlisted : ¬ entry.Listed) : Due volume indent entry []
  | file {entry : Fat16Entry} (listed : entry.Listed) (isFile : entry.isDirectory = false) :
      Due volume indent entry [.entry indent entry]
  | directory {entry : Fat16Entry} {clusters : List Nat} {inner : List Line}
      (listed : entry.Listed) (isDirectory : entry.isDirectory = true)
      (chain : volume.Chain entry.startingCluster.toNat clusters)
      (below : PreorderLines volume (indent + 1) (volume.directoryEntries clusters) inner) :
      Due volume indent entry (.entry indent entry :: inner)

theorem PreorderLines.due {indent : Nat} {entries : List Fat16Entry} {lines : List Line}
    (preorder : PreorderLines volume indent entries lines) :
    ∃ pieces, List.Forall₂ (Due volume indent) entries pieces ∧ lines = pieces.flatten := by
  induction preorder with
  | nil => exact ⟨[], .nil, rfl⟩
  | omitted unlisted rest inductionHypothesis =>
      rcases inductionHypothesis with ⟨pieces, each, rfl⟩
      exact ⟨[] :: pieces, .cons (.omitted unlisted) each, rfl⟩
  | file listed isFile rest inductionHypothesis =>
      rcases inductionHypothesis with ⟨pieces, each, rfl⟩
      exact ⟨_ :: pieces, .cons (.file listed isFile) each, rfl⟩
  | directory listed isDirectory chain below rest _ inductionHypothesis =>
      rcases inductionHypothesis with ⟨pieces, each, rfl⟩
      exact ⟨_ :: pieces, .cons (.directory listed isDirectory chain below) each, rfl⟩

/-- Pieces that are due for every entry make up the pre-order. -/
theorem PreorderLines.of_due {indent : Nat} {entries : List Fat16Entry}
    {pieces : List (List Line)} (each : List.Forall₂ (Due volume indent) entries pieces) :
    PreorderLines volume indent entries pieces.flatten := by
  induction each with
  | nil => exact .nil
  | cons due each inductionHypothesis =>
      cases due with
      | omitted unlisted => exact .omitted unlisted inductionHypothesis
      | file listed isFile => exact .file listed isFile inductionHypothesis
      | directory listed isDirectory chain below =>
          exact .directory listed isDirectory chain below inductionHypothesis

section Agreement

variable {α β : Type} {first second : α → List β → Prop}

theorem length_flatten_le {items : List α} {pieces others : List (List β)}
    (each : List.Forall₂ first items pieces) (other : List.Forall₂ second items others)
    (shorter : ∀ item ∈ items, ∀ piece piece', first item piece → second item piece' →
      piece.length ≤ piece'.length) : pieces.flatten.length ≤ others.flatten.length := by
  induction each generalizing others with
  | nil => exact Nat.zero_le _
  | cons holds each inductionHypothesis =>
      cases other with
      | cons holds' other =>
          have head := shorter _ List.mem_cons_self _ _ holds holds'
          have tail := inductionHypothesis other fun item member =>
            shorter item (List.mem_cons_of_mem _ member)
          simpa using Nat.add_le_add head tail

/-- Two ways to make one list out of pieces agree on every piece, when the pieces
of one are never longer than those of the other. -/
theorem agree_of_flatten {items : List α} {pieces others : List (List β)}
    (each : List.Forall₂ first items pieces) (other : List.Forall₂ second items others)
    (shorter : ∀ item ∈ items, ∀ piece piece', first item piece → second item piece' →
      piece.length ≤ piece'.length) (same : pieces.flatten = others.flatten) :
    ∀ item ∈ items, ∃ piece, first item piece ∧ second item piece := by
  induction each generalizing others with
  | nil => simp
  | cons holds each inductionHypothesis =>
      cases other with
      | cons holds' other =>
          have tailShorter : ∀ item ∈ _, ∀ piece piece', first item piece → second item piece' →
              piece.length ≤ piece'.length :=
            fun item member => shorter item (List.mem_cons_of_mem _ member)
          have head := shorter _ List.mem_cons_self _ _ holds holds'
          have tail := length_flatten_le each other tailShorter
          have total := congrArg List.length same
          simp only [List.flatten_cons, List.length_append] at total
          obtain ⟨rfl, rest⟩ := List.append_inj same (by omega)
          intro item member
          rcases List.mem_cons.mp member with rfl | later
          · exact ⟨_, holds, holds'⟩
          · exact inductionHypothesis other tailShorter rest item later

end Agreement

/-! ### Directories below directories -/

namespace WellFormedDirectory

variable {self parent : UInt16}

theorem chain (wellFormed : WellFormedDirectory volume self parent) :
    ∃ clusters, volume.Chain self.toNat clusters :=
  match wellFormed with
  | .intro chain .. => ⟨_, chain⟩

/-- No sub-directory is the root. -/
theorem ne_zero (wellFormed : WellFormedDirectory volume self parent) : self ≠ 0 := by
  cases wellFormed with
  | intro chain hasDot =>
      cases chain with
      | finish => simp [Volume.directoryEntries] at hasDot
      | link inside valid =>
          rintro rfl
          simp at valid

/-- In a finite tree no directory contains itself. -/
theorem child_ne (wellFormed : WellFormedDirectory volume self parent) {clusters : List Nat}
    (chain : volume.Chain self.toNat clusters) {entry : Fat16Entry}
    (member : entry ∈ volume.directoryEntries clusters) (listed : entry.Listed)
    (isDirectory : entry.isDirectory = true) : entry.startingCluster ≠ self := by
  induction wellFormed generalizing clusters entry with
  | intro ownChain _ _ _ _ _ inductionHypothesis =>
      intro same
      subst same
      obtain rfl := ownChain.unique chain
      exact inductionHypothesis entry member listed isDirectory chain member listed isDirectory rfl

theorem child (wellFormed : WellFormedDirectory volume self parent) {clusters : List Nat}
    (chain : volume.Chain self.toNat clusters) {entry : Fat16Entry}
    (member : entry ∈ volume.directoryEntries clusters) (listed : entry.Listed)
    (isDirectory : entry.isDirectory = true) :
    WellFormedDirectory volume entry.startingCluster self := by
  cases wellFormed with
  | intro ownChain _ _ _ _ subdirectories =>
      obtain rfl := ownChain.unique chain
      exact subdirectories entry member listed isDirectory

/-- `print_tree` shows every sub-directory. -/
theorem child_shown (wellFormed : WellFormedDirectory volume self parent) {clusters : List Nat}
    (chain : volume.Chain self.toNat clusters) {entry : Fat16Entry}
    (member : entry ∈ volume.directoryEntries clusters) (listed : entry.Listed)
    (isDirectory : entry.isDirectory = true) : entry.ShownIn self :=
  ⟨listed.1.1, wellFormed.child_ne chain member listed isDirectory,
    fun toRoot => (wellFormed.child chain member listed isDirectory).ne_zero toRoot.2⟩

/-- `print_tree` shows the `..` of a sub-directory whose parent is not the root. -/
theorem dotDot_shown (wellFormed : WellFormedDirectory volume self parent)
    (notRoot : parent ≠ 0) (notSelf : parent ≠ self) {clusters : List Nat}
    (chain : volume.Chain self.toNat clusters) :
    ∃ entry ∈ volume.directoryEntries clusters, entry.startingCluster = parent ∧
      entry.isDirectory = true ∧ entry.ShownIn self := by
  cases wellFormed with
  | intro ownChain hasDot hasDotDot dot dotDot =>
      obtain rfl := ownChain.unique chain
      rcases hasDotDot with ⟨entry, member, isDotDot⟩
      rcases dotDot entry member isDotDot with ⟨isDirectory, rfl⟩
      have used : entry.firstByte ≠ 0 := by
        rw [Fat16Entry.firstByte, isDotDot.1]
        decide
      exact ⟨entry, member, rfl, isDirectory, used, notSelf, fun toRoot => notRoot toRoot.2⟩

end WellFormedDirectory

/-- A directory below a sub-directory and its parent list each other through `..`
without end. -/
theorem nested_never_ends {outer inner parent : UInt16} {clusters : List Nat}
    {child : Fat16Entry} (wellFormed : WellFormedDirectory volume outer parent)
    (chain : volume.Chain outer.toNat clusters)
    (member : child ∈ volume.directoryEntries clusters) (listed : child.Listed)
    (isDirectory : child.isDirectory = true) (isInner : child.startingCluster = inner)
    (fuel : Nat) (directory : Fat16Entry) (depth : Int) (position : Nat)
    (either : directory.startingCluster = outer ∨ directory.startingCluster = inner) :
    printTree volume fuel (some directory) depth position = none := by
  subst isInner
  have innerWellFormed := wellFormed.child chain member listed isDirectory
  induction fuel generalizing directory depth position with
  | zero => rfl
  | succ fuel inductionHypothesis =>
      have endless {entry : Fat16Entry} {entries : List Fat16Entry} {lines : List Line}
          (pieces : Pieces volume fuel (depth + 1)
            (Fat16Entry.ShownIn directory.startingCluster) entries lines)
          (found : entry ∈ entries) (isDirectory : entry.isDirectory = true)
          (shown : entry.ShownIn directory.startingCluster)
          (either : entry.startingCluster = outer ∨
            entry.startingCluster = child.startingCluster) : False := by
        rcases pieces.mem found with ⟨piece, printed, -⟩
        cases printed with
        | hidden isHidden => exact isHidden shown
        | file _ isFile => simp [isFile] at isDirectory
        | directory _ _ ran =>
            rw [inductionHypothesis entry (depth + 1) _ either] at ran
            cases ran
      cases run : printTree volume (fuel + 1) (some directory) depth position with
      | none => rfl
      | some result =>
          exfalso
          rcases either with atOuter | atInner
          · have pieces := printTree_subdirectory (by rw [atOuter]; exact chain) run
            exact endless pieces member isDirectory
              (atOuter ▸ wellFormed.child_shown chain member listed isDirectory) (.inr rfl)
          · obtain ⟨innerClusters, innerChain⟩ := innerWellFormed.chain
            have notSelf : outer ≠ child.startingCluster :=
              (wellFormed.child_ne chain member listed isDirectory).symm
            rcases innerWellFormed.dotDot_shown wellFormed.ne_zero notSelf innerChain with
              ⟨entry, found, isOuter, entryDirectory, shown⟩
            have pieces := printTree_subdirectory (by rw [atInner]; exact innerChain) run
            exact endless pieces found entryDirectory (atInner ▸ shown) (.inl isOuter)

/-! ### When the listing is the pre-order

`print_tree` knows `.` by the cluster of the directory and `..` by cluster 0.  In a directory
of a sub-directory `..` has the cluster of the sub-directory, and the recursion goes back up
and never ends.  The condition is on the entries of the root and of the directories in it.
-/

/-- The volumes `print_tree` lists: what it shows of the root and of the
directories in the root are exactly the listed entries, and no directory lies
below a sub-directory. -/
structure ListsExactly (volume : Volume) : Prop where
  root : ∀ entry ∈ volume.rootEntries, entry.firstByte ≠ 0 → entry.Listed
  shown : ∀ directory ∈ volume.rootEntries, directory.Listed → directory.isDirectory →
    ∀ clusters, volume.Chain directory.startingCluster.toNat clusters →
      ∀ entry ∈ volume.directoryEntries clusters,
        entry.ShownIn directory.startingCluster ↔ entry.Listed
  flat : ∀ directory ∈ volume.rootEntries, directory.Listed → directory.isDirectory →
    ∀ clusters, volume.Chain directory.startingCluster.toNat clusters →
      ∀ entry ∈ volume.directoryEntries clusters, entry.Listed → entry.isDirectory = false

/-- Pieces are due when exactly the listed entries are shown and what is printed
below a directory is its pre-order. -/
theorem Pieces.preorder {fuel : Nat} {depth : Int} {shown : Fat16Entry → Prop}
    {entries : List Fat16Entry} {lines : List Line}
    (pieces : Pieces volume fuel depth shown entries lines)
    (exact_ : ∀ entry ∈ entries, shown entry ↔ entry.Listed)
    (below : ∀ entry ∈ entries, entry.Listed → entry.isDirectory = true →
      ∀ position inner finish,
        printTree volume fuel (some entry) depth position = some (inner, finish) →
          ∃ clusters, volume.Chain entry.startingCluster.toNat clusters ∧
            PreorderLines volume (depth.toNat + 2) (volume.directoryEntries clusters) inner) :
    PreorderLines volume (depth.toNat + 1) entries lines := by
  rcases pieces with ⟨pieces, each, rfl⟩
  apply PreorderLines.of_due
  induction each with
  | nil => exact .nil
  | cons printed each inductionHypothesis =>
      have head := exact_ _ List.mem_cons_self
      refine .cons ?_ (inductionHypothesis
        (fun entry member => exact_ entry (List.mem_cons_of_mem _ member))
        (fun entry member => below entry (List.mem_cons_of_mem _ member)))
      cases printed with
      | hidden isHidden => exact .omitted fun listed => isHidden (head.mpr listed)
      | file isShown isFile => exact .file (head.mp isShown) isFile
      | directory isShown isDirectory ran =>
          have listed := head.mp isShown
          obtain ⟨clusters, chain, preorder⟩ :=
            below _ List.mem_cons_self listed isDirectory _ _ _ ran
          exact .directory listed isDirectory chain preorder

/-- One bound on the fuel serves a whole list. -/
theorem uniform_bound {α : Type} {items : List α} {property : α → Nat → Prop}
    (each : ∀ item ∈ items, ∃ bound, ∀ fuel, bound ≤ fuel → property item fuel) :
    ∃ bound, ∀ item ∈ items, property item bound := by
  have together : ∃ bound, ∀ fuel, bound ≤ fuel → ∀ item ∈ items, property item fuel := by
    induction items with
    | nil => exact ⟨0, by simp⟩
    | cons item items inductionHypothesis =>
        obtain ⟨first, firstHolds⟩ := each item List.mem_cons_self
        obtain ⟨rest, restHolds⟩ := inductionHypothesis fun item member =>
          each item (List.mem_cons_of_mem _ member)
        refine ⟨max first rest, fun fuel enough => List.forall_mem_cons.mpr ⟨?_, ?_⟩⟩
        · exact firstHolds fuel (le_trans (le_max_left ..) enough)
        · exact restHolds fuel (le_trans (le_max_right ..) enough)
  obtain ⟨bound, holds⟩ := together
  exact ⟨bound, holds bound (le_refl bound)⟩

theorem ListsExactly.printsPreorder (lists : ListsExactly volume)
    (wellFormed : WellFormedVolume volume) : PrintsPreorder volume := by
  intro position
  -- One level of sub-directories: nothing below them is a directory.
  have subdirectory (directory : Fat16Entry) (member : directory ∈ volume.rootEntries)
      (listed : directory.Listed) (isDirectory : directory.isDirectory = true) :
      ∃ clusters, volume.Chain directory.startingCluster.toNat clusters ∧
        ∀ fuel, clusters.length < fuel → ∀ position, ∃ inner finish,
          printTree volume fuel (some directory) 0 position = some (inner, finish) := by
    obtain ⟨clusters, chain⟩ :=
      (wellFormed.subdirectories directory member listed isDirectory).chain
    refine ⟨clusters, chain, fun fuel enough position => ?_⟩
    obtain ⟨fuel, rfl⟩ : ∃ more, fuel = more + 1 := ⟨fuel - 1, by omega⟩
    apply printTree_subdirectory_total chain (Nat.le_of_lt_succ enough)
    intro entry found isShown entryDirectory
    have entryListed :=
      (lists.shown directory member listed isDirectory clusters chain entry found).mp isShown
    have isFile :=
      lists.flat directory member listed isDirectory clusters chain entry found entryListed
    simp [isFile] at entryDirectory
  have bounded : ∃ fuel, ∀ directory ∈ volume.rootEntries, directory.firstByte ≠ 0 →
      directory.isDirectory → ∀ position, ∃ inner finish,
        printTree volume fuel (some directory) 0 position = some (inner, finish) := by
    apply uniform_bound
    intro directory member
    by_cases descends : directory.firstByte ≠ 0 ∧ directory.isDirectory
    · obtain ⟨clusters, -, finishes⟩ :=
        subdirectory directory member (lists.root directory member descends.1) descends.2
      exact ⟨clusters.length + 1, fun fuel enough _ _ => finishes fuel enough⟩
    · exact ⟨0, fun fuel _ used isDirectory => absurd ⟨used, isDirectory⟩ descends⟩
  obtain ⟨fuel, finishes⟩ := bounded
  obtain ⟨lines, finish, ran⟩ := printTree_root_total wellFormed.root finishes position
  obtain ⟨rest, rfl, pieces⟩ := printTree_root wellFormed.root ran
  refine ⟨fuel + 1, rest, finish, ran, ?_⟩
  apply pieces.preorder
  · exact fun entry member => ⟨lists.root entry member, fun listed => listed.1.1⟩
  · intro directory member listed isDirectory start inner stop run
    obtain ⟨clusters, chain, -⟩ := subdirectory directory member listed isDirectory
    refine ⟨clusters, chain, ?_⟩
    cases fuel with
    | zero => cases run
    | succ fuel =>
        have inside := printTree_subdirectory chain run
        apply inside.preorder
        · exact lists.shown directory member listed isDirectory clusters chain
        · intro entry found entryListed entryDirectory
          have isFile :=
            lists.flat directory member listed isDirectory clusters chain entry found entryListed
          simp [isFile] at entryDirectory

/-- Whatever is shown has its line. -/
theorem Piece.line_mem {fuel : Nat} {depth : Int} {shown : Fat16Entry → Prop}
    {entry : Fat16Entry} {piece : List Line} (printed : Piece volume fuel depth shown entry piece)
    (isShown : shown entry) : .entry (depth.toNat + 1) entry ∈ piece := by
  cases printed with
  | hidden isHidden => exact absurd isShown isHidden
  | file => exact List.mem_cons_self
  | directory => exact List.mem_cons_self

/-- If only listed entries have lines, only listed entries are shown. -/
theorem Pieces.listed {fuel : Nat} {depth : Int} {shown : Fat16Entry → Prop}
    {entries : List Fat16Entry} {lines : List Line}
    (pieces : Pieces volume fuel depth shown entries lines)
    (allListed : ∀ line ∈ lines, ∃ indent entry, line = .entry indent entry ∧ entry.Listed) :
    ∀ entry ∈ entries, shown entry → entry.Listed := by
  intro entry member isShown
  rcases pieces.mem member with ⟨piece, printed, contained⟩
  rcases allListed _ (contained _ (printed.line_mem isShown)) with ⟨indent, listed, same, isListed⟩
  cases same
  exact isListed

/-- A piece is never longer than what is due, if that is so below a directory. -/
theorem Piece.length_le_due {fuel indent : Nat} {depth : Int} {shown : Fat16Entry → Prop}
    {entry : Fat16Entry} {piece due : List Line}
    (listed : shown entry → entry.Listed)
    (below : entry.Listed → entry.isDirectory = true → ∀ clusters,
      volume.Chain entry.startingCluster.toNat clusters → ∀ position finish inner innerDue,
        printTree volume fuel (some entry) depth position = some (inner, finish) →
          PreorderLines volume (indent + 1) (volume.directoryEntries clusters) innerDue →
            inner.length ≤ innerDue.length)
    (printed : Piece volume fuel depth shown entry piece) (isDue : Due volume indent entry due) :
    piece.length ≤ due.length := by
  cases printed with
  | hidden => exact Nat.zero_le _
  | file isShown =>
      cases isDue with
      | omitted unlisted => exact absurd (listed isShown) unlisted
      | file | directory => simp
  | directory isShown isDirectory run =>
      cases isDue with
      | omitted unlisted => exact absurd (listed isShown) unlisted
      | file _ isFile => simp [isFile] at isDirectory
      | directory isListed _ chain preorder =>
          exact Nat.succ_le_succ (below isListed isDirectory _ chain _ _ _ _ run preorder)

/-- What a run has printed for a directory of the root. -/
theorem Pieces.ofDirectory {fuel : Nat} {lines : List Line}
    (pieces : Pieces volume fuel 0 (fun entry => entry.firstByte ≠ 0) volume.rootEntries lines)
    {directory : Fat16Entry} (member : directory ∈ volume.rootEntries)
    (listed : directory.Listed) (isDirectory : directory.isDirectory = true)
    {clusters : List Nat} (chain : volume.Chain directory.startingCluster.toNat clusters) :
    ∃ below position stop inner, fuel = below + 1 ∧
      printTree volume fuel (some directory) 0 position = some (inner, stop) ∧
      (∀ line ∈ inner, line ∈ lines) ∧
      Pieces volume below 1 (Fat16Entry.ShownIn directory.startingCluster)
        (volume.directoryEntries clusters) inner := by
  rcases pieces.mem member with ⟨piece, printed, contained⟩
  cases printed with
  | hidden isHidden => exact absurd listed.1.1 isHidden
  | file _ isFile => simp [isFile] at isDirectory
  | directory _ _ run =>
      cases fuel with
      | zero => cases run
      | succ fuel =>
          exact ⟨fuel, _, _, _, rfl, run,
            fun line isIn => contained line (List.mem_cons_of_mem _ isIn),
            printTree_subdirectory chain run⟩

/-- If only listed entries have lines, only listed entries are shown below the root. -/
theorem Pieces.listed_below {fuel : Nat} {lines : List Line}
    (pieces : Pieces volume fuel 0 (fun entry => entry.firstByte ≠ 0) volume.rootEntries lines)
    (allListed : ∀ line ∈ lines, ∃ indent entry, line = .entry indent entry ∧ entry.Listed)
    {directory : Fat16Entry} (member : directory ∈ volume.rootEntries)
    (listed : directory.Listed) (isDirectory : directory.isDirectory = true)
    {clusters : List Nat} (chain : volume.Chain directory.startingCluster.toNat clusters) :
    ∀ entry ∈ volume.directoryEntries clusters,
      entry.ShownIn directory.startingCluster → entry.Listed := by
  obtain ⟨below, position, stop, inner, -, -, contained, innerPieces⟩ :=
    pieces.ofDirectory member listed isDirectory chain
  exact innerPieces.listed fun line isIn => allListed line (contained line isIn)

/-- A run that has ended met no directory below a directory of the root. -/
theorem Pieces.flat_below {fuel : Nat} {lines : List Line}
    (pieces : Pieces volume fuel 0 (fun entry => entry.firstByte ≠ 0) volume.rootEntries lines)
    (wellFormed : WellFormedVolume volume)
    {directory : Fat16Entry} (member : directory ∈ volume.rootEntries)
    (listed : directory.Listed) (isDirectory : directory.isDirectory = true)
    {clusters : List Nat} (chain : volume.Chain directory.startingCluster.toNat clusters) :
    ∀ entry ∈ volume.directoryEntries clusters, entry.Listed → entry.isDirectory = false := by
  intro entry found entryListed
  by_contra isNested
  obtain ⟨below, position, stop, inner, -, run, -, -⟩ :=
    pieces.ofDirectory member listed isDirectory chain
  have endless :=
    nested_never_ends (wellFormed.subdirectories directory member listed isDirectory) chain
      found entryListed (by simpa using isNested) rfl fuel directory 0 position (.inl rfl)
  rw [endless] at run
  cases run

section Directory

/-! What lies in one directory: only listed entries are shown, and none of them
is a directory. -/

variable {directory : Fat16Entry} {clusters : List Nat}
  (onlyListed : ∀ entry ∈ volume.directoryEntries clusters,
    entry.ShownIn directory.startingCluster → entry.Listed)
  (flat : ∀ entry ∈ volume.directoryEntries clusters, entry.Listed → entry.isDirectory = false)
  (chain : volume.Chain directory.startingCluster.toNat clusters)

include onlyListed flat chain

/-- The run prints no more for the directory than is due. -/
theorem length_le_of_due {fuel : Nat} {position stop : Nat} {inner due : List Line}
    (run : printTree volume fuel (some directory) 0 position = some (inner, stop))
    (below : PreorderLines volume 2 (volume.directoryEntries clusters) due) :
    inner.length ≤ due.length := by
  cases fuel with
  | zero => cases run
  | succ fuel =>
      rcases printTree_subdirectory chain run with ⟨innerPieces, eachInner, rfl⟩
      obtain ⟨innerDues, eachInnerDue, rfl⟩ := below.due
      apply length_flatten_le eachInner eachInnerDue
      intro entry found piece due printed isDue
      refine printed.length_le_due (onlyListed entry found) ?_ isDue
      intro entryListed isDirectory
      simp [flat entry found entryListed] at isDirectory

/-- If the run prints what is due, every listed entry is shown. -/
theorem shown_of_due {fuel : Nat} {position stop : Nat} {inner : List Line}
    (run : printTree volume fuel (some directory) 0 position = some (inner, stop))
    (below : PreorderLines volume 2 (volume.directoryEntries clusters) inner)
    {entry : Fat16Entry} (found : entry ∈ volume.directoryEntries clusters)
    (entryListed : entry.Listed) : entry.ShownIn directory.startingCluster := by
  cases fuel with
  | zero => cases run
  | succ fuel =>
      obtain ⟨innerPieces, eachInner, sameInner⟩ := printTree_subdirectory chain run
      obtain ⟨innerDues, eachInnerDue, sameInnerDue⟩ := below.due
      have shorter : ∀ item ∈ volume.directoryEntries clusters, ∀ piece due,
          Piece volume fuel 1 (Fat16Entry.ShownIn directory.startingCluster) item piece →
            Due volume 2 item due → piece.length ≤ due.length := by
        intro item isIn piece due printed isDue
        refine printed.length_le_due (onlyListed item isIn) ?_ isDue
        intro itemListed isDirectory
        simp [flat item isIn itemListed] at isDirectory
      obtain ⟨piece, printed, isDue⟩ :=
        agree_of_flatten eachInner eachInnerDue shorter (sameInner.symm.trans sameInnerDue)
          entry found
      cases isDue with
      | omitted unlisted => exact absurd entryListed unlisted
      | file | directory =>
          cases printed with
          | file isShown => exact isShown
          | directory isShown => exact isShown

end Directory

theorem PrintsPreorder.listsExactly (prints : PrintsPreorder volume)
    (wellFormed : WellFormedVolume volume) : ListsExactly volume := by
  obtain ⟨fuel, lines, finish, ran, preorder⟩ := prints 0
  cases fuel with
  | zero => cases ran
  | succ fuel =>
      obtain ⟨rest, same, pieces⟩ := printTree_root wellFormed.root ran
      obtain rfl := List.cons.inj same |>.2
      have allListed := preorder.listed
      have root := pieces.listed allListed
      have onlyListed {directory : Fat16Entry} (member : directory ∈ volume.rootEntries) :=
        pieces.listed_below allListed member
      have flat {directory : Fat16Entry} (member : directory ∈ volume.rootEntries) :=
        pieces.flat_below wellFormed member
      refine ⟨root, ?_, fun _ member listed isDirectory _ => flat member listed isDirectory⟩
      intro directory member listed isDirectory clusters chain entry found
      refine ⟨onlyListed member listed isDirectory chain entry found, ?_⟩
      -- A listed entry that is not shown leaves the output too short.
      intro entryListed
      obtain ⟨dues, eachDue, sameDue⟩ := preorder.due
      have shorter : ∀ item ∈ volume.rootEntries, ∀ piece due,
          Piece volume fuel 0 (fun entry => entry.firstByte ≠ 0) item piece →
            Due volume 1 item due → piece.length ≤ due.length := by
        intro item itemMember piece due printed isDue
        refine printed.length_le_due (root item itemMember) ?_ isDue
        intro itemListed itemDirectory clusters itemChain position finish inner innerDue
        exact length_le_of_due (onlyListed itemMember itemListed itemDirectory itemChain)
          (flat itemMember itemListed itemDirectory itemChain) itemChain
      obtain ⟨pieces, each, same⟩ := pieces
      obtain ⟨piece, printed, isDue⟩ :=
        agree_of_flatten each eachDue shorter (same.symm.trans sameDue) directory member
      cases printed with
      | hidden isHidden => exact absurd listed.1.1 isHidden
      | file _ isFile => simp [isFile] at isDirectory
      | directory _ _ run =>
          cases isDue with
          | file _ isFile => simp [isFile] at isDirectory
          | directory _ _ dueChain below =>
              obtain rfl := dueChain.unique chain
              exact shown_of_due (onlyListed member listed isDirectory chain)
                (flat member listed isDirectory chain) chain run below found entryListed

/-- On a volume with a well-formed directory tree, `print_tree` ends and prints
the pre-order of the tree exactly when no directory lies below a sub-directory
and its tests on the starting clusters let exactly the listed entries through. -/
theorem prints_preorder_iff (volume : Volume) (wellFormed : WellFormedVolume volume) :
    PrintsPreorder volume ↔ ListsExactly volume :=
  ⟨fun prints => prints.listsExactly wellFormed, fun lists => lists.printsPreorder wellFormed⟩

/-! ### Two small volumes -/

/-- The 32 bytes of an entry with a name of one to eight bytes. -/
def entryBytes (name : List UInt8) (attributes startingCluster : UInt8) : List UInt8 :=
  name ++ List.replicate (11 - name.length) 0x20 ++ attributes :: List.replicate 14 0 ++
    [startingCluster, 0, 0, 0, 0, 0]

/-- Master boot record, boot sector, one FAT of one sector, a root directory of 16
entries and three clusters of one sector.  The root holds `A` at cluster 2, which
holds the given entry behind its `.` and `..`; cluster 4 is laid out as an empty
directory below it. -/
def sampleImage (entry : List UInt8) : Image :=
  .ofPatches 3584
    [(454, [1]), (523, [0x00, 0x02, 1, 1, 0, 1, 16, 0]), (534, [1, 0]),
      (1028, [0xFF, 0xFF, 0, 0, 0xFF, 0xFF]),
      (1536, entryBytes [0x41] 0x10 2),
      (2048, entryBytes [0x2E] 0x10 2 ++ entryBytes [0x2E, 0x2E] 0x10 0 ++ entry),
      (3072, entryBytes [0x2E] 0x10 4 ++ entryBytes [0x2E, 0x2E] 0x10 2)]

/-- `/A` and the file `/A/B`. -/
def flatVolume : Volume :=
  mount (sampleImage (entryBytes [0x42] 0x20 4)) fun _ => 0

/-- `/A` and the directory `/A/B`. -/
def nestedVolume : Volume :=
  mount (sampleImage (entryBytes [0x42] 0x10 4)) fun _ => 0

theorem flatVolume_chain : flatVolume.Chain 2 [2] :=
  .link (by decide) (by decide)
    ⟨by decide, by decide, by decide, by decide⟩
    (.finish (by decide))

theorem flatVolume_root : ∀ entry ∈ flatVolume.rootEntries, entry.Listed →
    entry.isDirectory → entry.startingCluster = 2 := by
  decide

theorem flatVolume_file : ∀ entry ∈ flatVolume.directoryEntries [2], entry.Listed →
    entry.isDirectory = false := by
  decide

theorem flatVolume_wellFormed : WellFormedVolume flatVolume where
  root := ⟨by decide, by decide⟩
  subdirectories := by
    intro entry member listed isDirectory
    rw [flatVolume_root entry member listed isDirectory]
    refine .intro flatVolume_chain (by decide) (by decide) (by decide)
      (by decide) fun inner found innerListed innerDirectory => ?_
    simp [flatVolume_file inner found innerListed] at innerDirectory

/-- One level of directories is listed. -/
theorem prints_preorder_flat : PrintsPreorder flatVolume := by
  have onlyChain {clusters : List Nat} {directory : Fat16Entry}
      (member : directory ∈ flatVolume.rootEntries) (listed : directory.Listed)
      (isDirectory : directory.isDirectory = true)
      (chain : flatVolume.Chain directory.startingCluster.toNat clusters) :
      directory.startingCluster = 2 ∧ clusters = [2] := by
    have start := flatVolume_root directory member listed isDirectory
    rw [start] at chain
    exact ⟨start, chain.unique flatVolume_chain⟩
  apply (prints_preorder_iff flatVolume flatVolume_wellFormed).mpr
  constructor
  · decide
  · intro directory member listed isDirectory clusters chain
    obtain ⟨start, rfl⟩ := onlyChain member listed isDirectory chain
    rw [start]
    decide
  · intro directory member listed isDirectory clusters chain
    obtain ⟨start, rfl⟩ := onlyChain member listed isDirectory chain
    exact flatVolume_file

theorem nestedVolume_chain : nestedVolume.Chain 2 [2] ∧ nestedVolume.Chain 4 [4] :=
  ⟨.link (by decide) (by decide)
      ⟨by decide, by decide, by decide, by decide⟩
      (.finish (by decide)),
    .link (by decide) (by decide)
      ⟨by decide, by decide, by decide, by decide⟩
      (.finish (by decide))⟩

theorem nestedVolume_wellFormed : WellFormedVolume nestedVolume where
  root := ⟨by decide, by decide⟩
  subdirectories := by
    have root : ∀ entry ∈ nestedVolume.rootEntries, entry.Listed → entry.isDirectory →
        entry.startingCluster = 2 := by decide
    have nested : ∀ entry ∈ nestedVolume.directoryEntries [2], entry.Listed →
        entry.isDirectory → entry.startingCluster = 4 := by decide
    have empty : ∀ entry ∈ nestedVolume.directoryEntries [4], ¬ entry.Listed := by decide
    intro entry member listed isDirectory
    rw [root entry member listed isDirectory]
    refine .intro nestedVolume_chain.1 (by decide) (by decide)
      (by decide) (by decide) fun inner found innerListed innerDirectory => ?_
    rw [nested inner found innerListed innerDirectory]
    exact .intro nestedVolume_chain.2 (by decide) (by decide)
      (by decide) (by decide) fun none isIn noneListed =>
        absurd noneListed (empty none isIn)

/-- The listing of a well-formed volume with one directory two levels deep does
not end. -/
theorem nested_volume_never_listed :
    ¬ ∀ (image : Image) (uninitialised : Bytes), WellFormedVolume (mount image uninitialised) →
      PrintsPreorder (mount image uninitialised) := by
  intro claimed
  have prints : PrintsPreorder nestedVolume := claimed _ _ nestedVolume_wellFormed
  have lists := prints.listsExactly nestedVolume_wellFormed
  have found : ∃ directory ∈ nestedVolume.rootEntries, directory.Listed ∧
      directory.isDirectory ∧ directory.startingCluster = 2 := by decide
  have nested : ∃ entry ∈ nestedVolume.directoryEntries [2], entry.Listed ∧
      entry.isDirectory = true := by decide
  obtain ⟨directory, member, listed, isDirectory, start⟩ := found
  obtain ⟨entry, isIn, entryListed, entryDirectory⟩ := nested
  have chain : nestedVolume.Chain directory.startingCluster.toNat [2] := by
    rw [start]
    exact nestedVolume_chain.1
  have isFile := lists.flat directory member listed isDirectory [2] chain entry isIn entryListed
  simp [isFile] at entryDirectory

end Ivos.Fat
