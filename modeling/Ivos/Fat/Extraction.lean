/-
Module: Ivos.Fat.Extraction
Purpose: The two extraction loops of `read`, and what they write on a chain inside the
  image.
Trusted boundary: the stack holds `cluster_data`, and writing to `stderr` succeeds
Main exports: Extraction, extractTurn, extract, Volume.follow, Volume.FileChain,
  extraction_exact, iterate_place
-/
import Ivos.Library.WhileLoop
import Ivos.Fat.Directory
import Mathlib.Algebra.Order.Floor.Div

namespace Ivos.Fat

/-! ### The loops

`read` extracts a file by one of two loops, one for the root directory and one for the
others, which differ in their test and in the names of their variables.  Each declares an
array `cluster_data` on the stack that is not initialised.  The size of the array, and with
it an overflow of the stack, is not modelled; nor does `fwrite` to `stderr` fail.
-/

/-- The variables of an extraction loop. -/
structure Extraction where
  /-- `current_cluster` or `current_entry_cluster`. -/
  currentCluster : Nat
  bytesRead : Nat
  clusterData : Bytes
  position : Nat
  /-- What `fwrite` has sent to `stderr`. -/
  written : List UInt8

section Loops

variable (volume : Volume) (fileSize : Nat)

/-- `bytes_to_read`. -/
def bytesToRead (bytesRead : Nat) : Nat :=
  if fileSize - bytesRead < clusterSize volume.bs then fileSize - bytesRead
  else clusterSize volume.bs

/-- The body of either loop. -/
def extractTurn (loop : Extraction) : Extraction :=
  let position := fseek (volume.clusterOffset loop.currentCluster) loop.position
  let count := bytesToRead volume fileSize loop.bytesRead
  let (clusterData, position) := fread volume.image count position loop.clusterData
  let (next, position) := getNextCluster volume loop.currentCluster position
  { currentCluster := next
    bytesRead := loop.bytesRead + count
    clusterData := clusterData
    position := position
    written := loop.written ++ (List.range count).map clusterData }

/-- The test of the loop for the root directory. -/
def rootGoesOn (loop : Extraction) : Bool :=
  loop.currentCluster < 0xFFF8 && loop.bytesRead < fileSize

/-- The test of the loop for the other directories. -/
def subdirectoryGoesOn (loop : Extraction) : Bool :=
  !isEndOfChain loop.currentCluster && loop.bytesRead < fileSize

def extractionGoesOn (inRoot : Bool) : Extraction → Bool :=
  if inRoot then rootGoesOn fileSize else subdirectoryGoesOn fileSize

/-- The variables in front of the loop. -/
def Extraction.start (entry : Fat16Entry) (position : Nat) : Extraction where
  currentCluster := entry.startingCluster.toNat
  bytesRead := 0
  clusterData := volume.uninitialised
  position := position
  written := []

/-- The extraction of an entry that was matched in the root directory or in another
one, with the stream at `position`; `fuel` bounds the turns. -/
def extract (inRoot : Bool) (fuel : Nat) (entry : Fat16Entry) (position : Nat) :
    Option Extraction :=
  whileLoop (extractionGoesOn entry.fileSize.toNat inRoot)
    (extractTurn volume entry.fileSize.toNat) fuel (.start volume entry position)

end Loops

/-- One link further: the cluster and the position of the stream after `length` bytes
of a cluster were read and its FAT entry was looked up. -/
def Volume.follow (volume : Volume) (length : Nat) (place : Nat × Nat) : Nat × Nat :=
  let position := fseek (volume.clusterOffset place.1) place.2
  getNextCluster volume place.1 (position + min length (volume.image.size - position))

/-! ### Chains by the layout formulas -/

namespace Volume

variable (volume : Volume)

/-- The bytes of a cluster. -/
def clusterBytes (cluster : Nat) : List UInt8 :=
  (List.range (clusterSize volume.bs)).map fun index =>
    volume.image.byte ((Fat.clusterOffset volume.startSector volume.bs cluster).toNat + index)

/-- The FAT entry of a cluster. -/
def fatValue (cluster : Nat) : Nat :=
  (ushort (fun index => volume.image.byte
    ((Fat.fatEntryOffset volume.startSector volume.bs cluster).toNat + index)) 0).toNat

/-- A data cluster inside the image, at an offset that fits in an `int`. -/
structure HoldsCluster (cluster : Nat) : Prop where
  first : 2 ≤ cluster
  last : cluster < 0xFFF8
  offset : 0 ≤ Fat.clusterOffset volume.startSector volume.bs cluster
  inRange : Fat.clusterOffset volume.startSector volume.bs cluster < 2 ^ 31
  inside : (Fat.clusterOffset volume.startSector volume.bs cluster).toNat +
    clusterSize volume.bs ≤ volume.image.size

/-- The FAT entry of a cluster lies inside the image, at an offset that fits in an
`int`. -/
structure HoldsLink (cluster : Nat) : Prop where
  offset : 0 ≤ Fat.fatEntryOffset volume.startSector volume.bs cluster
  inRange : Fat.fatEntryOffset volume.startSector volume.bs cluster < 2 ^ 31
  inside : (Fat.fatEntryOffset volume.startSector volume.bs cluster).toNat + 2 ≤
    volume.image.size

/-- The chain from a cluster begins with these data clusters. -/
inductive FileChain : Nat → List Nat → Prop where
  | nil {cluster : Nat} : FileChain cluster []
  | cons {cluster : Nat} {clusters : List Nat} (holds : volume.HoldsCluster cluster)
      (link : clusters ≠ [] → volume.HoldsLink cluster)
      (rest : FileChain (volume.fatValue cluster) clusters) :
      FileChain cluster (cluster :: clusters)

end Volume

variable {volume : Volume}

theorem Volume.HoldsCluster.clusterOffset {cluster : Nat} (holds : volume.HoldsCluster cluster) :
    volume.clusterOffset cluster = Fat.clusterOffset volume.startSector volume.bs cluster := by
  apply int32_of_range
  · have nonneg := holds.offset
    omega
  · exact holds.inRange

theorem Volume.HoldsLink.getNextCluster {cluster : Nat} (holds : volume.HoldsLink cluster)
    (position : Nat) : (getNextCluster volume cluster position).1 = volume.fatValue cluster := by
  have stored : volume.fatEntryOffset cluster =
      Fat.fatEntryOffset volume.startSector volume.bs cluster := by
    apply int32_of_range
    · have nonneg := holds.offset
      omega
    · exact holds.inRange
  unfold Fat.getNextCluster Volume.fatValue
  have sought : fseek (volume.fatEntryOffset cluster) position =
      (Fat.fatEntryOffset volume.startSector volume.bs cluster).toNat := by
    rw [stored]
    exact if_pos holds.offset
  simp only [sought, fread_of_le holds.inside]
  rfl

/-! ### What one turn does -/

section Turns

variable {fileSize : Nat} {loop : Extraction}

theorem bytesToRead_le (volume : Volume) (fileSize bytesRead : Nat) :
    bytesToRead volume fileSize bytesRead ≤ fileSize - bytesRead := by
  unfold bytesToRead
  split
  · exact Nat.le_refl _
  · omega

theorem bytesToRead_le_clusterSize (volume : Volume) (fileSize bytesRead : Nat) :
    bytesToRead volume fileSize bytesRead ≤ clusterSize volume.bs := by
  unfold bytesToRead
  split <;> omega

theorem bytesToRead_eq (bytesRead : Nat) :
    bytesToRead volume fileSize bytesRead = min (clusterSize volume.bs) (fileSize - bytesRead) := by
  unfold bytesToRead
  split <;> omega

theorem extractTurn_bytesRead : (extractTurn volume fileSize loop).bytesRead =
    loop.bytesRead + bytesToRead volume fileSize loop.bytesRead := rfl

/-- A turn writes as many bytes as it counts. -/
theorem extractTurn_length (counted : loop.written.length = loop.bytesRead) :
    (extractTurn volume fileSize loop).written.length =
      (extractTurn volume fileSize loop).bytesRead := by
  have added : (extractTurn volume fileSize loop).written.length =
      loop.written.length + bytesToRead volume fileSize loop.bytesRead := by
    simp [extractTurn]
  rw [added, extractTurn_bytesRead, counted]

/-- A turn on a data cluster writes the front of its bytes. -/
theorem extractTurn_written (holds : volume.HoldsCluster loop.currentCluster) :
    (extractTurn volume fileSize loop).written = loop.written ++
      (volume.clusterBytes loop.currentCluster).take
        (bytesToRead volume fileSize loop.bytesRead) := by
  have sought : fseek (volume.clusterOffset loop.currentCluster) loop.position =
      (Fat.clusterOffset volume.startSector volume.bs loop.currentCluster).toNat := by
    rw [holds.clusterOffset]
    exact if_pos holds.offset
  have small := bytesToRead_le_clusterSize volume fileSize loop.bytesRead
  have inside := holds.inside
  simp only [extractTurn, sought]
  rw [fread_of_le (Nat.le_trans (Nat.add_le_add_left small _) inside)]
  congr 1
  unfold Volume.clusterBytes
  rw [← List.map_take, List.take_range, Nat.min_eq_left small]
  apply List.map_congr_left
  intro index member
  exact if_pos (List.mem_range.mp member)

end Turns

/-! ### What the loops write -/

section Written

variable {fileSize : Nat} {loop final : Extraction} {inRoot : Bool}

theorem extractionGoesOn_iff : extractionGoesOn fileSize inRoot loop = true ↔
    loop.currentCluster < (if inRoot then 0xFFF8 else 0xFFFF) ∧ loop.bytesRead < fileSize := by
  cases inRoot with
  | true => simp [extractionGoesOn, rootGoesOn]
  | false => simp [extractionGoesOn, subdirectoryGoesOn, isEndOfChain]

/-- What both loops keep of the number of bytes. -/
structure Budget (fileSize : Nat) (loop : Extraction) : Prop where
  counted : loop.written.length = loop.bytesRead
  within : loop.bytesRead ≤ fileSize

theorem Budget.turn (budget : Budget fileSize loop) :
    Budget fileSize (extractTurn volume fileSize loop) := by
  constructor
  · exact extractTurn_length budget.counted
  · have small := bytesToRead_le volume fileSize loop.bytesRead
    have within := budget.within
    rw [extractTurn_bytesRead]
    omega

theorem Budget.start (entry : Fat16Entry) (position : Nat) :
    Budget fileSize (.start volume entry position) :=
  ⟨rfl, Nat.zero_le _⟩

/-- Every turn of a loop that goes on reads something. -/
theorem bytesToRead_pos (nonempty : 0 < clusterSize volume.bs) {bytesRead : Nat}
    (left : bytesRead < fileSize) : 0 < bytesToRead volume fileSize bytesRead := by
  rw [bytesToRead_eq]
  omega

/-- The budget ends either loop, whatever the FAT holds. -/
theorem extract_terminates (nonempty : 0 < clusterSize volume.bs) (inRoot : Bool)
    (entry : Fat16Entry) (position : Nat) :
    ∃ final, extract volume inRoot (entry.fileSize.toNat + 1) entry position = some final := by
  apply whileLoop_of_measure (fun _ => True)
    fun loop => entry.fileSize.toNat - loop.bytesRead
  · intro before _ running
    have left := (extractionGoesOn_iff.mp running).2
    have progress := bytesToRead_pos nonempty left
    refine ⟨trivial, ?_⟩
    rw [extractTurn_bytesRead]
    omega
  · trivial
  · exact Nat.lt_succ_of_le (Nat.sub_le _ _)

/-- A loop whose budget is used up returns. -/
theorem returned_of_used (used : fileSize ≤ loop.bytesRead) {fuel : Nat}
    (returned : whileLoop (extractionGoesOn fileSize inRoot) (extractTurn volume fileSize) fuel
      loop = some final) : final = loop := by
  have stopped : extractionGoesOn fileSize inRoot loop = false := by
    rw [Bool.eq_false_iff, Ne, extractionGoesOn_iff]
    exact fun running => absurd running.2 (Nat.not_lt.mpr used)
  cases fuel with
  | zero => cases returned
  | succ fuel =>
      simp only [whileLoop, stopped, Bool.false_eq_true, if_false] at returned
      cases returned
      rfl

/-- The front of a file is the front of its first cluster and of what follows. -/
theorem take_clusters (cluster : Nat) (clusters : List Nat) (bytesRead : Nat) :
    ((cluster :: clusters).flatMap volume.clusterBytes).take (fileSize - bytesRead) =
      (volume.clusterBytes cluster).take (bytesToRead volume fileSize bytesRead) ++
        (clusters.flatMap volume.clusterBytes).take
          (fileSize - (bytesRead + bytesToRead volume fileSize bytesRead)) := by
  have size : (volume.clusterBytes cluster).length = clusterSize volume.bs := by
    simp [Volume.clusterBytes]
  have left : fileSize - bytesRead - clusterSize volume.bs =
      fileSize - (bytesRead + bytesToRead volume fileSize bytesRead) := by
    rw [bytesToRead_eq]
    omega
  have front : (volume.clusterBytes cluster).take (bytesToRead volume fileSize bytesRead) =
      (volume.clusterBytes cluster).take (fileSize - bytesRead) := by
    rw [bytesToRead_eq, ← size, Nat.min_comm, ← List.take_take, List.take_length]
  rw [List.flatMap_cons, List.take_append, size, left, front]

/-- From a turn on, a loop adds what the rest of the chain holds, up to the size. -/
theorem extraction_from {cluster : Nat} {clusters : List Nat}
    (chain : volume.FileChain cluster clusters)
    (here : clusters ≠ [] → loop.currentCluster = cluster)
    (long : fileSize - loop.bytesRead ≤ clusters.length * clusterSize volume.bs) {fuel : Nat}
    (returned : whileLoop (extractionGoesOn fileSize inRoot) (extractTurn volume fileSize) fuel
      loop = some final) :
    final.written = loop.written ++
      (clusters.flatMap volume.clusterBytes).take (fileSize - loop.bytesRead) := by
  induction chain generalizing loop fuel with
  | nil =>
      have used : fileSize ≤ loop.bytesRead := by simpa [Nat.sub_eq_zero_iff_le] using long
      rw [returned_of_used used returned]
      simp
  | @cons cluster clusters holds link rest inductionHypothesis =>
      by_cases left : loop.bytesRead < fileSize
      · have atCluster : loop.currentCluster = cluster := here (List.cons_ne_nil _ _)
        have running : extractionGoesOn fileSize inRoot loop = true := by
          rw [extractionGoesOn_iff, atCluster]
          have last := holds.last
          exact ⟨by split <;> omega, left⟩
        cases fuel with
        | zero => cases returned
        | succ fuel =>
            simp only [whileLoop, running, if_true] at returned
            have onward : clusters ≠ [] →
                (extractTurn volume fileSize loop).currentCluster = volume.fatValue cluster := by
              intro more
              rw [← atCluster]
              exact (atCluster ▸ link more : volume.HoldsLink loop.currentCluster).getNextCluster _
            have shorter : fileSize - (extractTurn volume fileSize loop).bytesRead ≤
                clusters.length * clusterSize volume.bs := by
              rw [List.length_cons, Nat.succ_mul] at long
              rw [extractTurn_bytesRead, bytesToRead_eq]
              omega
            rw [inductionHypothesis onward shorter returned, extractTurn_bytesRead,
              extractTurn_written (atCluster ▸ holds), atCluster, take_clusters,
              List.append_assoc]
      · have used : fileSize ≤ loop.bytesRead := Nat.le_of_not_lt left
        rw [returned_of_used used returned, Nat.sub_eq_zero_of_le used]
        simp

end Written

/-- Either extraction loop ends after at most `file_size` turns and writes at most
`file_size` bytes; on a chain that is long enough it writes the first `file_size`
bytes of the clusters, in the order of the chain. -/
theorem extraction_exact (volume : Volume) (inRoot : Bool) (entry : Fat16Entry) (position : Nat)
    (sectors : 0 < volume.bs.sectorSize) (clusters : 0 < volume.bs.sectorsPerCluster) :
    ∃ fuel final, extract volume inRoot fuel entry position = some final ∧
      final.written.length ≤ entry.fileSize.toNat ∧
      ∀ chain, volume.FileChain entry.startingCluster.toNat chain →
        entry.fileSize.toNat ⌈/⌉ clusterSize volume.bs ≤ chain.length →
        final.written = (chain.flatMap volume.clusterBytes).take entry.fileSize.toNat := by
  have nonempty : 0 < clusterSize volume.bs := Nat.mul_pos clusters sectors
  obtain ⟨final, returned⟩ := extract_terminates nonempty inRoot entry position
  refine ⟨_, final, returned, ?_, ?_⟩
  · have budget := whileLoop_invariant (Budget entry.fileSize.toNat)
      (fun _ budget _ => budget.turn) (.start entry position) returned
    rw [budget.1.counted]
    exact budget.1.within
  · intro chain linked enough
    have long : entry.fileSize.toNat ≤ chain.length * clusterSize volume.bs := by
      rw [Nat.mul_comm]
      exact (ceilDiv_le_iff_le_mul nonempty).mp enough
    have whole := extraction_from linked (fun _ => rfl) long returned
    simpa [Extraction.start] using whole

/-- A volume like `sampleImage` with three clusters, whose chain from cluster 2 is
given as the bytes of the FAT from there on. -/
def fileVolume (fat : List UInt8) : Volume :=
  mount (.ofPatches 3584
    [(454, [1]), (523, [0x00, 0x02, 1, 1, 0, 1, 16, 0]), (534, [1, 0]), (1028, fat),
      (2048, [0x41]), (2560, [0x42]), (3072, [0x43])]) fun _ => 0

/-- A file of 600 bytes from cluster 2 on. -/
def sampleFile : Fat16Entry :=
  { Fat16Entry.decode fun _ => 0 with startingCluster := 2, fileSize := 600 }

/-- A file in clusters 2 and 4 is extracted. -/
theorem extraction_exact_sampleFile : ∃ fuel final,
    extract (fileVolume [4, 0, 0, 0, 0xFF, 0xFF]) false fuel sampleFile 0 = some final ∧
      final.written =
        ([2, 4].flatMap (fileVolume [4, 0, 0, 0, 0xFF, 0xFF]).clusterBytes).take 600 := by
  have exact := extraction_exact (fileVolume [4, 0, 0, 0, 0xFF, 0xFF]) false sampleFile 0
    (by decide) (by decide)
  obtain ⟨fuel, final, returned, -, whole⟩ := exact
  have first : (fileVolume [4, 0, 0, 0, 0xFF, 0xFF]).HoldsCluster 2 :=
    ⟨by decide, by decide, by decide, by decide, by decide⟩
  have link : (fileVolume [4, 0, 0, 0, 0xFF, 0xFF]).HoldsLink 2 :=
    ⟨by decide, by decide, by decide⟩
  have second : (fileVolume [4, 0, 0, 0, 0xFF, 0xFF]).HoldsCluster 4 :=
    ⟨by decide, by decide, by decide, by decide, by decide⟩
  have linked : (fileVolume [4, 0, 0, 0, 0xFF, 0xFF]).fatValue 2 = 4 := by decide
  refine ⟨fuel, final, returned, whole [2, 4] ?_ (by decide)⟩
  apply Volume.FileChain.cons first fun _ => link
  rw [linked]
  exact .cons second (fun more => absurd rfl more) .nil

/-! ### Turns that follow the links -/

section Step

variable {fileSize turns : Nat} {loop : Extraction}

/-- The turns count the bytes of whole clusters, up to the size of the file. -/
theorem iterate_bytesRead {turn : Extraction → Extraction}
    (counts : ∀ loop, (turn loop).bytesRead =
      loop.bytesRead + bytesToRead volume fileSize loop.bytesRead)
    (fresh : loop.bytesRead = 0) (turns : Nat) :
    (turn^[turns] loop).bytesRead = min (turns * clusterSize volume.bs) fileSize := by
  induction turns with
  | zero => simp [fresh]
  | succ turns inductionHypothesis =>
      rw [Function.iterate_succ_apply', counts, inductionHypothesis, bytesToRead_eq, Nat.succ_mul]
      omega

/-- As long as whole clusters are read, the turns follow the chain. -/
theorem iterate_place (fresh : loop.bytesRead = 0)
    (whole : turns * clusterSize volume.bs ≤ fileSize) :
    (((extractTurn volume fileSize)^[turns] loop).currentCluster,
      ((extractTurn volume fileSize)^[turns] loop).position) =
        (volume.follow (clusterSize volume.bs))^[turns] (loop.currentCluster, loop.position) := by
  induction turns with
  | zero => rfl
  | succ turns inductionHypothesis =>
      rw [Nat.succ_mul] at whole
      rw [Function.iterate_succ_apply', Function.iterate_succ_apply',
        ← inductionHypothesis (by omega)]
      have full : bytesToRead volume fileSize
          ((extractTurn volume fileSize)^[turns] loop).bytesRead = clusterSize volume.bs := by
        rw [iterate_bytesRead (fun _ => extractTurn_bytesRead) fresh, bytesToRead_eq]
        omega
      rw [← full]
      rfl

theorem iterate_currentCluster (fresh : loop.bytesRead = 0)
    (whole : turns * clusterSize volume.bs ≤ fileSize) :
    ((extractTurn volume fileSize)^[turns] loop).currentCluster =
      ((volume.follow (clusterSize volume.bs))^[turns] (loop.currentCluster, loop.position)).1 :=
  congrArg Prod.fst (iterate_place fresh whole)

end Step

end Ivos.Fat
