/-
Module: Ivos.Fat.Layout
Purpose: The layout formulas of the program beside the layout of a FAT16
  partition, and the geometries for which they agree.
Trusted boundary: none
Main exports: fatEntryOffset, rootOffset, firstDataSector, clusterOffset,
  LayoutConsistent, layout_consistent_iff, wide_sectors_move_root
-/
import Ivos.Fat.Image
import Mathlib.Data.Int.ConditionallyCompleteOrder
import Mathlib.Order.CompletePartialOrder
import Mathlib.Order.Interval.Set.Disjoint
import Mathlib.Tactic.Linarith
import Mathlib.Tactic.Positivity
import Mathlib.Tactic.Ring

namespace Ivos.Fat

/-!
Three formulas of the program place the areas of the partition, each in its own
way: `get_next_cluster` starts the partition at `start_sector * 512`; `main` seeks
from behind the boot sector, which it takes to be 512 bytes long; the commands
multiply `start_sector` by the sector size and round the root directory down.
The definitions below are those formulas in exact integers.
-/

section Formulas

variable (startSector : UInt32) (bs : Fat16BootSector)

/-- `fat_start`. -/
def fatStart : Int :=
  bs.reservedSectors.toNat * bs.sectorSize.toNat

/-- `fat_entry_offset` of `get_next_cluster`. -/
def fatEntryOffset (cluster : Int) : Int :=
  startSector.toNat * 512 + fatStart bs + cluster * 2

/-- `root_directory_offset`: two seeks and the boot sector read between them. -/
def rootOffset : Int :=
  512 * startSector.toNat + bootSectorSize + rootSeek bs

/-- `first_data_sector`, which is an offset in bytes. -/
def firstDataSector : Int :=
  (startSector.toNat + bs.reservedSectors.toNat +
      bs.numberOfFats.toNat * bs.fatSizeSectors.toNat +
      (bs.rootDirEntries.toNat * 32 / bs.sectorSize.toNat : Nat)) * bs.sectorSize.toNat

/-- `cluster_size`. -/
def clusterSize : Nat :=
  bs.sectorsPerCluster.toNat * bs.sectorSize.toNat

/-- `cluster_offset`. -/
def clusterOffset (cluster : Int) : Int :=
  firstDataSector startSector bs +
    (cluster - 2) * bs.sectorsPerCluster.toNat * bs.sectorSize.toNat

/-! ### The areas of a FAT16 partition

The other side is the layout that FAT16 prescribes: reserved sectors, then the FATs, then
the root directory, rounded up to whole sectors, then the clusters from number 2 on.
-/

/-- The partition begins with its boot sector, where `main` reads it. -/
def partitionStart : Int :=
  512 * startSector.toNat

/-- The reserved area ends and the first FAT begins. -/
def reservedEnd : Int :=
  partitionStart startSector + bs.reservedSectors.toNat * bs.sectorSize.toNat

/-- Length of all FATs together. -/
def fatsLength : Int :=
  bs.numberOfFats.toNat * bs.fatSizeSectors.toNat * bs.sectorSize.toNat

/-- The last FAT ends and the root directory begins. -/
def fatsEnd : Int :=
  reservedEnd startSector bs + fatsLength bs

/-- Length of the root directory. -/
def rootLength : Nat :=
  bs.rootDirEntries.toNat * entrySize

/-- The root area, in whole sectors, ends and the data area begins. -/
def rootEnd : Int :=
  fatsEnd startSector bs +
    ((rootLength bs + bs.sectorSize.toNat - 1) / bs.sectorSize.toNat : Nat) * bs.sectorSize.toNat

/-- The bytes from an offset on. -/
def byteRange (offset length : Int) : Set Int :=
  Set.Ico offset (offset + length)

/-- The formulas name the areas of the partition, and the areas do not overlap. -/
structure LayoutConsistent : Prop where
  fat : fatEntryOffset startSector bs 0 = reservedEnd startSector bs
  root : rootOffset startSector bs = fatsEnd startSector bs
  dataBehindRoot : rootOffset startSector bs + rootLength bs ≤ firstDataSector startSector bs
  data : firstDataSector startSector bs = rootEnd startSector bs
  clusters : ∀ first second : Nat, 2 ≤ first → 2 ≤ second → first ≠ second →
    Disjoint (byteRange (clusterOffset startSector bs first) (clusterSize bs))
      (byteRange (clusterOffset startSector bs second) (clusterSize bs))
  clusterRoot : ∀ cluster : Nat, 2 ≤ cluster →
    Disjoint (byteRange (clusterOffset startSector bs cluster) (clusterSize bs))
      (byteRange (rootOffset startSector bs) (rootLength bs))
  clusterFats : ∀ cluster : Nat, 2 ≤ cluster →
    Disjoint (byteRange (clusterOffset startSector bs cluster) (clusterSize bs))
      (byteRange (fatEntryOffset startSector bs 0) (fatsLength bs))
  rootFats : Disjoint (byteRange (rootOffset startSector bs) (rootLength bs))
    (byteRange (fatEntryOffset startSector bs 0) (fatsLength bs))

end Formulas

variable {startSector : UInt32} {bs : Fat16BootSector}

/-- A range that ends before another begins. -/
theorem disjoint_of_le {first firstLength second secondLength : Int}
    (before : first + firstLength ≤ second) :
    Disjoint (byteRange first firstLength) (byteRange second secondLength) := by
  unfold byteRange
  rw [Set.Ico_disjoint_Ico]
  omega

/-- Later clusters lie a whole number of cluster sizes further on. -/
theorem clusterOffset_add (cluster count : Nat) :
    clusterOffset startSector bs (cluster + count : Nat) =
      clusterOffset startSector bs cluster + count * clusterSize bs := by
  unfold clusterOffset clusterSize
  push_cast
  ring

/-- Distinct clusters are disjoint, whatever the geometry. -/
theorem clusters_disjoint {first second : Nat} (different : first ≠ second) :
    Disjoint (byteRange (clusterOffset startSector bs first) (clusterSize bs))
      (byteRange (clusterOffset startSector bs second) (clusterSize bs)) := by
  have apart {near far : Nat} (before : near < far) :
      clusterOffset startSector bs near + clusterSize bs ≤ clusterOffset startSector bs far := by
    obtain ⟨count, rfl⟩ := Nat.exists_eq_add_of_lt before
    rw [Nat.add_assoc, clusterOffset_add]
    have nonneg : (0 : Int) ≤ count * clusterSize bs := by positivity
    push_cast
    linarith
  rcases Nat.lt_or_gt_of_ne different with before | behind
  · exact disjoint_of_le (apart before)
  · exact (disjoint_of_le (apart behind)).symm

/-- No cluster from 2 on begins before the data area. -/
theorem firstDataSector_le {cluster : Nat} (valid : 2 ≤ cluster) :
    firstDataSector startSector bs ≤ clusterOffset startSector bs cluster := by
  obtain ⟨count, rfl⟩ := Nat.exists_eq_add_of_le valid
  rw [clusterOffset_add]
  have first : clusterOffset startSector bs (2 : Nat) = firstDataSector startSector bs := by
    simp [clusterOffset]
  have nonneg : (0 : Int) ≤ count * clusterSize bs := by positivity
  linarith

/-- `get_next_cluster` finds the FAT of every geometry. -/
theorem fatEntryOffset_zero :
    fatEntryOffset startSector bs 0 = reservedEnd startSector bs := by
  unfold fatEntryOffset fatStart reservedEnd partitionStart
  ring

/-- `main` finds the root directory exactly when a sector has 512 bytes. -/
theorem rootOffset_eq_iff :
    rootOffset startSector bs = fatsEnd startSector bs ↔ bs.sectorSize = 512 := by
  have difference : rootOffset startSector bs - fatsEnd startSector bs =
      512 - bs.sectorSize.toNat := by
    unfold rootOffset rootSeek bootSectorSize fatsEnd reservedEnd partitionStart fatsLength
    push_cast
    ring
  have value : bs.sectorSize = 512 ↔ bs.sectorSize.toNat = 512 := by
    rw [← UInt16.toNat_inj]
    rfl
  rw [value]
  omega

/-- With sectors of 512 bytes, the data area begins where the root area ends
exactly when the root directory fills whole sectors. -/
theorem firstDataSector_eq_iff (sectors : bs.sectorSize = 512) :
    firstDataSector startSector bs = rootEnd startSector bs ↔ 512 ∣ rootLength bs := by
  have value : bs.sectorSize.toNat = 512 := by rw [sectors]; rfl
  have difference : rootEnd startSector bs - firstDataSector startSector bs =
      512 * (((rootLength bs + 511) / 512 : Nat) - (rootLength bs / 512 : Nat)) := by
    unfold rootEnd firstDataSector fatsEnd reservedEnd partitionStart fatsLength rootLength
      entrySize
    rw [value]
    push_cast
    ring
  have rounding : (rootLength bs + 511) / 512 = rootLength bs / 512 ↔ 512 ∣ rootLength bs := by
    omega
  rw [← rounding]
  omega

/-- For every geometry, the formulas agree with the partition and with each other
exactly when a sector has 512 bytes and the root directory fills whole sectors. -/
theorem layout_consistent_iff (startSector : UInt32) (bs : Fat16BootSector) :
    LayoutConsistent startSector bs ↔ bs.sectorSize = 512 ∧ 512 ∣ rootLength bs := by
  constructor
  · intro consistent
    have sectors := rootOffset_eq_iff.mp consistent.root
    exact ⟨sectors, (firstDataSector_eq_iff sectors).mp consistent.data⟩
  · intro ⟨sectors, whole⟩
    have root : rootOffset startSector bs = fatsEnd startSector bs :=
      rootOffset_eq_iff.mpr sectors
    have data : firstDataSector startSector bs = rootEnd startSector bs :=
      (firstDataSector_eq_iff sectors).mpr whole
    have value : bs.sectorSize.toNat = 512 := by rw [sectors]; rfl
    have behindRoot :
      rootOffset startSector bs + rootLength bs ≤ firstDataSector startSector bs := by
      rw [data, root]
      unfold rootEnd
      rw [value]
      omega
    have fatsBeforeRoot : fatEntryOffset startSector bs 0 + fatsLength bs ≤
        rootOffset startSector bs := by
      rw [root, fatEntryOffset_zero]
      exact le_refl _
    have rootNonneg : (0 : Int) ≤ rootLength bs := by positivity
    constructor
    · exact fatEntryOffset_zero
    · exact root
    · exact behindRoot
    · exact data
    · intro first second _ _ different
      exact clusters_disjoint different
    · intro cluster valid
      apply Disjoint.symm
      apply disjoint_of_le
      exact le_trans behindRoot (firstDataSector_le valid)
    · intro cluster valid
      apply Disjoint.symm
      apply disjoint_of_le
      calc fatEntryOffset startSector bs 0 + fatsLength bs
          ≤ rootOffset startSector bs := fatsBeforeRoot
        _ ≤ rootOffset startSector bs + rootLength bs := by linarith
        _ ≤ firstDataSector startSector bs := behindRoot
        _ ≤ clusterOffset startSector bs cluster := firstDataSector_le valid
    · exact (disjoint_of_le fatsBeforeRoot).symm

/-- A value in the range of `int` is stored as it is. -/
theorem int32_of_range {value : Int} (lower : -2 ^ 31 ≤ value) (upper : value < 2 ^ 31) :
    int32 value = value := by
  apply Int.bmod_eq_of_le
  · exact lower
  · exact upper

/-- One FAT16 volume of 32 root entries in sectors of 1024 bytes. -/
def wideSectors : Fat16BootSector where
  sectorSize := 1024
  sectorsPerCluster := 1
  reservedSectors := 1
  numberOfFats := 2
  rootDirEntries := 32
  fatSizeSectors := 1

/-- With sectors of 1024 bytes the root directory is sought 512 bytes too early,
inside the last FAT. -/
theorem wide_sectors_move_root :
    ¬ ∀ (startSector : UInt32) (bs : Fat16BootSector),
      bs.sectorSize ∈ [512, 1024, 2048, 4096] → bs.sectorsPerCluster ≠ 0 →
        1 ≤ bs.reservedSectors → LayoutConsistent startSector bs := by
  intro claimed
  have consistent := claimed 0 wideSectors (by decide) (by decide) (by decide)
  have moved : rootOffset 0 wideSectors ≠ fatsEnd 0 wideSectors := by decide
  exact moved consistent.root

end Ivos.Fat
