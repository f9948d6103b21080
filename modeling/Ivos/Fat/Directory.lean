/-
Module: Ivos.Fat.Directory
Purpose: The two loops every command walks a directory with, `get_next_cluster`,
  and the entries and cluster chains they read on a readable volume.
Trusted boundary: none
Main exports: isEndOfChain, getNextCluster, Flow, forEntries, walkChain,
  entriesAt, Chain, forEntries_rule, walkChain_rule
-/
import Ivos.Fat.Layout

namespace Ivos.Fat

/-! ### The loops

Every command walks a directory in one of two ways: over the entries of the root directory,
or cluster by cluster along a chain.  The commands differ in the body of the loop only, so
that the loops are stated once with the body as a parameter.  The variable `entry` is
declared outside the loops and keeps its bytes from turn to turn.

A chain can be circular, and then the `while` loop of the source never ends.  `fuel` bounds
its turns; `none` means that the bound was reached and says nothing about the source.  A
command returns when some bound gives a result.
-/

/-- `is_end_of_chain`. -/
def isEndOfChain (cluster : Nat) : Bool :=
  cluster ≥ 0xFFFF

/-- `cluster_offset`, as stored in an `int`. -/
def Volume.clusterOffset (volume : Volume) (cluster : Nat) : Int :=
  int32 (Fat.clusterOffset volume.startSector volume.bs cluster)

/-- `fat_entry_offset`, as stored in an `int`. -/
def Volume.fatEntryOffset (volume : Volume) (cluster : Nat) : Int :=
  int32 (Fat.fatEntryOffset volume.startSector volume.bs cluster)

/-- `cluster_size / sizeof(Fat16Entry)`. -/
def Volume.entriesPerCluster (volume : Volume) : Nat :=
  clusterSize volume.bs / entrySize

/-- `get_next_cluster`, with the position it leaves. -/
def getNextCluster (volume : Volume) (cluster position : Nat) : Nat × Nat :=
  let position := fseek (volume.fatEntryOffset cluster) position
  let (next, position) := fread volume.image 2 position volume.uninitialised
  ((ushort next 0).toNat, position)

/-- What a loop body does next: go on with the loop, or return from the function. -/
inductive Flow (State Result : Type) where
  | next (state : State) (position : Nat)
  | done (result : Result) (position : Nat)

section Loops

variable {State Result : Type} (volume : Volume)

/-- `for (i = index; ...; i++) { fread(&entry, sizeof(entry), 1, in); body }` with
`count` turns left; `held` is the variable `entry`.  A body that does not return
makes the loop `none`. -/
def forEntries (body : Nat → Fat16Entry → Nat → State → Option (Flow State Result)) :
    Nat → Nat → Bytes → Nat → State → Option (Flow State Result × Bytes)
  | 0, _, held, position, state => some (.next state position, held)
  | count + 1, index, held, position, state =>
      let (held, position) := fread volume.image entrySize position held
      match body index (.decode held) position state with
      | none => none
      | some (.done result position) => some (.done result position, held)
      | some (.next state position) =>
          forEntries body count (index + 1) held position state

/-- `while (!is_end_of_chain(current_cluster))`, with a bound on the turns.  The
body of the inner loop also sees `cluster_offset`. -/
def walkChain (body : Int → Nat → Fat16Entry → Nat → State → Option (Flow State Result)) :
    Nat → Nat → Bytes → Nat → State → Option (Flow State Result)
  | 0, _, _, _, _ => none
  | fuel + 1, cluster, held, position, state =>
      if isEndOfChain cluster then some (.next state position)
      else
        let offset := volume.clusterOffset cluster
        match forEntries volume (body offset) volume.entriesPerCluster 0 held
            (fseek offset position) state with
        | none => none
        | some (.done result position, _) => some (.done result position)
        | some (.next state position, held) =>
            let (next, position) := getNextCluster volume cluster position
            walkChain body fuel next held position state

end Loops

/-! ### Readable directories

A directory is readable when its entries and the FAT entries of its chain lie inside the
image.  What it contains is then a list of entries that no longer mentions the stream.
-/

/-- The entries from a position on. -/
def Image.entriesAt (image : Image) : Nat → Nat → List Fat16Entry
  | _, 0 => []
  | position, count + 1 =>
      image.entryAt position :: image.entriesAt (position + entrySize) count

theorem Image.lengths_of_mem_entriesAt {image : Image} {position count : Nat} {entry : Fat16Entry}
    (member : entry ∈ image.entriesAt position count) :
    entry.filename.length = 8 ∧ entry.ext.length = 3 := by
  induction count generalizing position with
  | zero => cases member
  | succ count inductionHypothesis =>
      rcases List.mem_cons.mp member with rfl | later
      · exact ⟨rfl, rfl⟩
      · exact inductionHypothesis later

namespace Volume

variable (volume : Volume)

/-- The entries of the root directory. -/
def rootEntries : List Fat16Entry :=
  volume.image.entriesAt volume.rootDirectoryOffset.toNat volume.bs.rootDirEntries.toNat

/-- The entries in one cluster. -/
def clusterEntries (cluster : Nat) : List Fat16Entry :=
  volume.image.entriesAt (volume.clusterOffset cluster).toNat volume.entriesPerCluster

/-- The entries of a directory that occupies the given clusters. -/
def directoryEntries (clusters : List Nat) : List Fat16Entry :=
  clusters.flatMap volume.clusterEntries

/-- What the FAT holds for a cluster. -/
def nextCluster (cluster : Nat) : Nat :=
  (ushort (fun index => volume.image.byte ((volume.fatEntryOffset cluster).toNat + index))
    0).toNat

/-- The cluster and its FAT entry lie inside the image. -/
structure Readable (cluster : Nat) : Prop where
  data : 0 ≤ volume.clusterOffset cluster
  dataInside : (volume.clusterOffset cluster).toNat + entrySize * volume.entriesPerCluster ≤
    volume.image.size
  fat : 0 ≤ volume.fatEntryOffset cluster
  fatInside : (volume.fatEntryOffset cluster).toNat + 2 ≤ volume.image.size

/-- The root directory lies inside the image. -/
structure RootReadable : Prop where
  offset : 0 ≤ volume.rootDirectoryOffset
  inside : volume.rootDirectoryOffset.toNat + entrySize * volume.bs.rootDirEntries.toNat ≤
    volume.image.size

/-- The chain from a cluster to the end mark. -/
inductive Chain : Nat → List Nat → Prop where
  | finish {cluster : Nat} (mark : isEndOfChain cluster = true) : Chain cluster []
  | link {cluster : Nat} {clusters : List Nat} (inside : isEndOfChain cluster = false)
      (valid : 2 ≤ cluster) (readable : volume.Readable cluster)
      (rest : Chain (volume.nextCluster cluster) clusters) : Chain cluster (cluster :: clusters)

end Volume

variable {volume : Volume}

/-- A seek to the cluster reaches its first entry. -/
theorem Volume.Readable.sought {cluster position : Nat} (readable : volume.Readable cluster) :
    fseek (volume.clusterOffset cluster) position =
      (volume.clusterOffset cluster).toNat + entrySize * 0 :=
  if_pos readable.data

theorem Volume.Readable.entriesInside {cluster : Nat} (readable : volume.Readable cluster) :
    (volume.clusterOffset cluster).toNat + entrySize * (0 + volume.entriesPerCluster) ≤
      volume.image.size := by
  simpa using readable.dataInside

/-- A seek to the root directory reaches its first entry. -/
theorem Volume.RootReadable.sought {position : Nat} (readable : volume.RootReadable) :
    fseek volume.rootDirectoryOffset position =
      volume.rootDirectoryOffset.toNat + entrySize * 0 :=
  if_pos readable.offset

theorem Volume.RootReadable.entriesInside (readable : volume.RootReadable) :
    volume.rootDirectoryOffset.toNat + entrySize * (0 + volume.bs.rootDirEntries.toNat) ≤
      volume.image.size := by
  simpa using readable.inside

theorem Volume.directoryEntries_cons (cluster : Nat) (clusters : List Nat) :
    volume.directoryEntries (cluster :: clusters) =
      volume.clusterEntries cluster ++ volume.directoryEntries clusters :=
  List.flatMap_cons

/-- A directory has one chain. -/
theorem Volume.Chain.unique {cluster : Nat} {first second : List Nat}
    (chain : volume.Chain cluster first) (other : volume.Chain cluster second) :
    first = second := by
  induction chain generalizing second with
  | finish mark =>
      cases other with
      | finish => rfl
      | link inside => simp [mark] at inside
  | link inside valid readable rest inductionHypothesis =>
      cases other with
      | finish mark => simp [inside] at mark
      | link _ _ _ otherRest => rw [inductionHypothesis otherRest]

theorem getNextCluster_fst {cluster position : Nat} (readable : volume.Readable cluster) :
    (getNextCluster volume cluster position).1 = volume.nextCluster cluster := by
  unfold getNextCluster Volume.nextCluster
  have sought : fseek (volume.fatEntryOffset cluster) position =
      (volume.fatEntryOffset cluster).toNat := if_pos readable.fat
  simp only [sought, fread_of_le readable.fatInside]
  rfl

/-! ### Rules for the loops -/

section Rules

variable {State Result : Type}

theorem entry_behind {base index : Nat} :
    base + entrySize * index + entrySize = base + entrySize * (index + 1) := by
  rw [Nat.mul_succ, Nat.add_assoc]

theorem entry_inside {base index count size : Nat}
    (inside : base + entrySize * (index + (count + 1)) ≤ size) :
    base + entrySize * index + entrySize ≤ size := by
  have next : entrySize * (index + 1) ≤ entrySize * (index + (count + 1)) :=
    Nat.mul_le_mul_left _ (by omega)
  rw [entry_behind]
  omega

/-- What a finished `for` loop leaves: each turn, starting behind its entry, comes
back to that position and extends what holds of the entries consumed. -/
theorem forEntries_rule {body : Nat → Fat16Entry → Nat → State → Option (Flow State Result)}
    (invariant : List Fat16Entry → State → Prop) {base : Nat}
    (turn : ∀ consumed index entry before after position, invariant consumed before →
      body index entry (base + entrySize * (index + 1)) before = some (.next after position) →
        position = base + entrySize * (index + 1) ∧ invariant (consumed ++ [entry]) after)
    {count index : Nat} {consumed : List Fat16Entry} {held heldAfter : Bytes}
    {before after : State} {position : Nat}
    (inside : base + entrySize * (index + count) ≤ volume.image.size)
    (holds : invariant consumed before)
    (ran : forEntries volume body count index held (base + entrySize * index) before =
      some (.next after position, heldAfter)) :
    position = base + entrySize * (index + count) ∧
      invariant (consumed ++ volume.image.entriesAt (base + entrySize * index) count) after := by
  induction count generalizing index consumed held before with
  | zero =>
      cases ran
      exact ⟨rfl, by simpa [Image.entriesAt] using holds⟩
  | succ count inductionHypothesis =>
      unfold forEntries at ran
      obtain ⟨entry, moved⟩ := decode_fread (entry_inside inside) held
      simp only [entry, moved, entry_behind] at ran
      split at ran
      · cases ran
      · cases ran
      · rename_i state position turned
        obtain ⟨rfl, extended⟩ := turn _ _ _ _ _ _ holds turned
        have rest := inductionHypothesis (by rw [Nat.add_right_comm, Nat.add_assoc]; exact inside)
          extended ran
        rw [← entry_behind, List.append_assoc] at rest
        exact ⟨by rw [rest.1, Nat.add_right_comm, Nat.add_assoc], rest.2⟩

/-- A `for` loop that returns does so on an entry it reads. -/
theorem forEntries_done {body : Nat → Fat16Entry → Nat → State → Option (Flow State Result)}
    {base : Nat}
    (turn : ∀ index entry before after position,
      body index entry (base + entrySize * (index + 1)) before = some (.next after position) →
        position = base + entrySize * (index + 1))
    {count index : Nat} {held heldAfter : Bytes} {before : State} {result : Result}
    {position : Nat} (inside : base + entrySize * (index + count) ≤ volume.image.size)
    (ran : forEntries volume body count index held (base + entrySize * index) before =
      some (.done result position, heldAfter)) :
    ∃ turnIndex, ∃ entry ∈ volume.image.entriesAt (base + entrySize * index) count, ∃ state,
      body turnIndex entry (base + entrySize * (turnIndex + 1)) state =
        some (.done result position) := by
  induction count generalizing index held before with
  | zero => cases ran
  | succ count inductionHypothesis =>
      unfold forEntries at ran
      obtain ⟨entry, moved⟩ := decode_fread (entry_inside inside) held
      simp only [entry, moved, entry_behind] at ran
      split at ran
      · cases ran
      · rename_i turned
        cases ran
        exact ⟨index, _, List.mem_cons_self, _, turned⟩
      · rename_i state position turned
        obtain rfl := turn _ _ _ _ _ turned
        have ends : index + 1 + count = index + (count + 1) := by omega
        rw [← ends] at inside
        obtain ⟨turnIndex, found, member, holds⟩ := inductionHypothesis inside ran
        rw [← entry_behind] at member
        exact ⟨turnIndex, found, List.mem_cons_of_mem _ member, holds⟩

/-- The `for` loop finishes when every turn on an entry it reads does. -/
theorem forEntries_total {body : Nat → Fat16Entry → Nat → State → Option (Flow State Result)}
    {base count index : Nat} {held : Bytes} {before : State}
    (inside : base + entrySize * (index + count) ≤ volume.image.size)
    (turn : ∀ turnIndex, ∀ entry ∈ volume.image.entriesAt (base + entrySize * index) count,
      ∀ state, ∃ after, body turnIndex entry (base + entrySize * (turnIndex + 1)) state =
        some (.next after (base + entrySize * (turnIndex + 1)))) :
    ∃ after heldAfter, forEntries volume body count index held (base + entrySize * index) before =
      some (.next after (base + entrySize * (index + count)), heldAfter) := by
  induction count generalizing index held before with
  | zero => exact ⟨before, held, rfl⟩
  | succ count inductionHypothesis =>
      unfold forEntries
      obtain ⟨entry, moved⟩ := decode_fread (entry_inside inside) held
      obtain ⟨state, turned⟩ := turn index _ (List.mem_cons_self) before
      simp only [entry, moved, entry_behind, turned]
      have ends : index + 1 + count = index + (count + 1) := by omega
      rw [← ends] at inside ⊢
      refine inductionHypothesis inside fun turnIndex entry member => ?_
      rw [← entry_behind] at member
      exact turn turnIndex entry (List.mem_cons_of_mem _ member)

/-- More fuel does not change what a `while` loop returns. -/
theorem walkChain_mono
    {body : Int → Nat → Fat16Entry → Nat → State → Option (Flow State Result)}
    {fuel more cluster position : Nat} {held : Bytes} {before : State}
    {flow : Flow State Result} (enough : fuel ≤ more)
    (ran : walkChain volume body fuel cluster held position before = some flow) :
    walkChain volume body more cluster held position before = some flow := by
  induction fuel generalizing more cluster held position before with
  | zero => cases ran
  | succ fuel inductionHypothesis =>
      cases more with
      | zero => cases enough
      | succ more =>
          unfold walkChain at ran ⊢
          split
          · rename_i mark
            rw [if_pos mark] at ran
            exact ran
          · rename_i inside
            rw [if_neg inside] at ran
            dsimp only at ran ⊢
            split
            · rename_i endless
              rw [endless] at ran
              exact ran
            · rename_i returned
              rw [returned] at ran
              exact ran
            · rename_i looped
              rw [looped] at ran
              exact inductionHypothesis (Nat.le_of_succ_le_succ enough) ran

/-- What a finished `while` loop leaves on a directory with a chain. -/
theorem walkChain_rule
    {body : Int → Nat → Fat16Entry → Nat → State → Option (Flow State Result)}
    (invariant : List Fat16Entry → State → Prop)
    (turn : ∀ offset consumed index entry before after position, 0 ≤ offset →
      invariant consumed before →
      body offset index entry (offset.toNat + entrySize * (index + 1)) before =
        some (.next after position) →
          position = offset.toNat + entrySize * (index + 1) ∧
            invariant (consumed ++ [entry]) after)
    {cluster : Nat} {clusters : List Nat} (chain : volume.Chain cluster clusters)
    {consumed : List Fat16Entry} {fuel : Nat} {held : Bytes} {position finish : Nat}
    {before after : State} (holds : invariant consumed before)
    (ran : walkChain volume body fuel cluster held position before = some (.next after finish)) :
    invariant (consumed ++ volume.directoryEntries clusters) after := by
  induction chain generalizing consumed fuel held position before with
  | finish mark =>
      cases fuel with
      | zero => cases ran
      | succ fuel =>
          simp only [walkChain, mark, if_true] at ran
          cases ran
          simpa [Volume.directoryEntries] using holds
  | @link cluster clusters inside valid readable rest inductionHypothesis =>
      cases fuel with
      | zero => cases ran
      | succ fuel =>
          simp only [walkChain, inside, Bool.false_eq_true, if_false] at ran
          split at ran
          · cases ran
          · cases ran
          · rename_i state stop held looped
            rw [readable.sought] at looped
            obtain ⟨-, extended⟩ := forEntries_rule invariant
              (fun consumed index entry before after position =>
                turn _ consumed index entry before after position readable.data)
              readable.entriesInside holds looped
            rw [getNextCluster_fst readable] at ran
            have whole := inductionHypothesis extended ran
            simpa [Volume.directoryEntries, Volume.clusterEntries] using whole

/-- A `while` loop that returns does so on an entry of the directory. -/
theorem walkChain_done
    {body : Int → Nat → Fat16Entry → Nat → State → Option (Flow State Result)}
    (turn : ∀ offset index entry before after position, 0 ≤ offset →
      body offset index entry (offset.toNat + entrySize * (index + 1)) before =
        some (.next after position) → position = offset.toNat + entrySize * (index + 1))
    {cluster : Nat} {clusters : List Nat} (chain : volume.Chain cluster clusters) {fuel : Nat}
    {held : Bytes} {position finish : Nat} {before : State} {result : Result}
    (ran : walkChain volume body fuel cluster held position before = some (.done result finish)) :
    ∃ offset turnIndex, ∃ entry ∈ volume.directoryEntries clusters, ∃ state,
      body offset turnIndex entry (offset.toNat + entrySize * (turnIndex + 1)) state =
        some (.done result finish) := by
  induction chain generalizing fuel held position before with
  | finish mark =>
      cases fuel with
      | zero => cases ran
      | succ fuel =>
          simp only [walkChain, mark, if_true] at ran
          cases ran
  | @link cluster clusters inside valid readable rest inductionHypothesis =>
      cases fuel with
      | zero => cases ran
      | succ fuel =>
          simp only [walkChain, inside, Bool.false_eq_true, if_false] at ran
          rw [readable.sought] at ran
          split at ran
          · cases ran
          · rename_i returned stop held looped
            cases ran
            obtain ⟨turnIndex, entry, member, state, turned⟩ := forEntries_done
              (fun index entry before after position =>
                turn _ index entry before after position readable.data)
              readable.entriesInside looped
            exact ⟨_, turnIndex, entry,
              List.mem_flatMap.mpr ⟨cluster, List.mem_cons_self, member⟩, state, turned⟩
          · rename_i state stop held looped
            rw [getNextCluster_fst readable] at ran
            obtain ⟨offset, turnIndex, entry, member, state, turned⟩ := inductionHypothesis ran
            refine ⟨offset, turnIndex, entry, ?_, state, turned⟩
            rw [Volume.directoryEntries_cons]
            exact List.mem_append_right _ member

/-- The `while` loop finishes on a directory with a chain when every turn does. -/
theorem walkChain_total
    {body : Int → Nat → Fat16Entry → Nat → State → Option (Flow State Result)}
    {cluster : Nat} {clusters : List Nat} (chain : volume.Chain cluster clusters)
    (turn : ∀ offset, 0 ≤ offset → ∀ index, ∀ entry ∈ volume.directoryEntries clusters,
      ∀ state, ∃ after, body offset index entry (offset.toNat + entrySize * (index + 1)) state =
        some (.next after (offset.toNat + entrySize * (index + 1))))
    {fuel : Nat} (enough : clusters.length < fuel) (held : Bytes) (position : Nat)
    (before : State) :
    ∃ after finish, walkChain volume body fuel cluster held position before =
      some (.next after finish) := by
  induction chain generalizing fuel held position before with
  | finish mark =>
      cases fuel with
      | zero => cases enough
      | succ fuel => exact ⟨before, position, by simp [walkChain, mark]⟩
  | @link cluster clusters inside valid readable rest inductionHypothesis =>
      cases fuel with
      | zero => cases enough
      | succ fuel =>
          simp only [walkChain, inside, Bool.false_eq_true, if_false]
          rw [readable.sought]
          have inCluster (entry : Fat16Entry) (member : entry ∈ volume.clusterEntries cluster) :
              entry ∈ volume.directoryEntries (cluster :: clusters) :=
            List.mem_flatMap.mpr ⟨cluster, List.mem_cons_self, member⟩
          have finishes : ∃ state heldAfter, forEntries volume (body (volume.clusterOffset cluster))
              volume.entriesPerCluster 0 held
              ((volume.clusterOffset cluster).toNat + entrySize * 0) before =
                some (.next state ((volume.clusterOffset cluster).toNat +
                  entrySize * (0 + volume.entriesPerCluster)), heldAfter) := by
            apply forEntries_total
            · exact readable.entriesInside
            · intro index entry member
              exact turn _ readable.data index entry (inCluster entry member)
          obtain ⟨state, heldAfter, looped⟩ := finishes
          rw [looped]
          dsimp only
          rw [getNextCluster_fst readable]
          apply inductionHypothesis
          · intro offset nonneg index entry member
            apply turn offset nonneg index entry
            rw [Volume.directoryEntries_cons]
            exact List.mem_append_right _ member
          · exact Nat.lt_of_succ_lt_succ enough

end Rules

end Ivos.Fat
