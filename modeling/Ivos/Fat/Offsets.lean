/-
Module: Ivos.Fat.Offsets
Purpose: The layout formulas in the types of the program, and the volumes for
  which they give the exact byte offsets.
Trusted boundary: none
Main exports: fatEntryOffset32, rootDirectoryOffset32, firstDataSector32,
  clusterOffset32, OnVolume, OffsetsExact, offsets_exact_iff, offsets_wrap
-/
import Ivos.Fat.Directory

namespace Ivos.Fat

/-!
`start_sector` is an `unsigned int`.  A sum or product with it is taken modulo
2^32, the other operands are promoted to `int`, and every offset ends in an `int`.
-/

section Formulas

variable (startSector : UInt32) (bs : Fat16BootSector)

/-- Promotion of an `unsigned short` to `int`. -/
def ofUshort (value : UInt16) : Int32 :=
  value.toUInt32.toInt32

/-- Promotion of an `unsigned char` to `int`. -/
def ofUchar (value : UInt8) : Int32 :=
  value.toUInt32.toInt32

/-- `fat_start`. -/
def fatStart32 : Int32 :=
  ofUshort bs.reservedSectors * ofUshort bs.sectorSize

/-- `fat_entry_offset` of `get_next_cluster`, whose parameter `start_sector` is an `int`. -/
def fatEntryOffset32 (cluster : Int32) : Int32 :=
  startSector.toInt32 * 512 + fatStart32 bs + cluster * 2

/-- `first_data_sector`. -/
def firstDataSector32 : Int32 :=
  ((startSector + bs.reservedSectors.toUInt32 +
      (ofUchar bs.numberOfFats * ofUshort bs.fatSizeSectors).toUInt32 +
      (ofUshort bs.rootDirEntries * 32 / ofUshort bs.sectorSize).toUInt32) *
    bs.sectorSize.toUInt32).toInt32

/-- `cluster_offset`. -/
def clusterOffset32 (cluster : Int32) : Int32 :=
  firstDataSector32 startSector bs +
    (cluster - 2) * ofUchar bs.sectorsPerCluster * ofUshort bs.sectorSize

/-- `root_directory_offset`: `fseek` takes both offsets as a `long`, and the result of
`ftell` is stored in an `int`.  The boot sector between them is read in full. -/
def rootDirectoryOffset32 : Int32 :=
  let position := fseek (512 * startSector).toNat 0
  let position := position + bootSectorSize
  let seek := (ofUshort bs.reservedSectors - 1 +
    ofUshort bs.fatSizeSectors * ofUchar bs.numberOfFats) * ofUshort bs.sectorSize
  Int32.ofNat (fseek (position + seek.toInt) position)

end Formulas

variable {startSector : UInt32} {bs : Fat16BootSector}

/-! ### Arithmetic in `int`

The source mixes `int`, `unsigned short` and `unsigned int`.  The definitions above keep
those types, where overflow wraps round; the compiler is taken to wrap signed sums as well.
The lemmas below bring them back to one exact value that is converted at the end.
-/

@[simp]
theorem ofUshort_eq (value : UInt16) : ofUshort value = .ofInt value.toNat := by
  rw [Int32.ofInt_eq_ofNat, ← UInt32.toInt32_ofNat', UInt32.ofNat_uInt16ToNat]
  rfl

@[simp]
theorem ofUchar_eq (value : UInt8) : ofUchar value = .ofInt value.toNat := by
  rw [Int32.ofInt_eq_ofNat, ← UInt32.toInt32_ofNat', UInt32.ofNat_uInt8ToNat]
  rfl

/-- An `unsigned short` converted to `int` by way of `unsigned int`. -/
theorem toUInt32_toInt32_eq (value : UInt16) : value.toUInt32.toInt32 = .ofInt value.toNat :=
  ofUshort_eq value

/-- An `unsigned int` converted to `int`. -/
theorem toInt32_eq (value : UInt32) : value.toInt32 = .ofInt value.toNat := by
  rw [Int32.ofInt_eq_ofNat, ← UInt32.toInt32_ofNat', UInt32.ofNat_toNat]

/-- A value stored in an `int`. -/
theorem toInt_ofInt (value : Int) : (Int32.ofInt value).toInt = int32 value :=
  Int32.toInt_ofInt

theorem fatEntryOffset32_eq (cluster : Nat) :
    fatEntryOffset32 startSector bs (.ofNat cluster) =
      .ofInt (fatEntryOffset startSector bs cluster) := by
  unfold fatEntryOffset32 fatStart32 fatEntryOffset fatStart
  rw [toInt32_eq, ← Int32.ofInt_eq_ofNat]
  simp only [ofUshort_eq, Int32.ofInt_add, Int32.ofInt_mul]
  rfl

/-- The sectors of the root directory, by a division in `int`. -/
theorem rootSectors_eq :
    ofUshort bs.rootDirEntries * 32 / ofUshort bs.sectorSize =
      .ofInt (bs.rootDirEntries.toNat * 32 / bs.sectorSize.toNat : Nat) := by
  have entries : bs.rootDirEntries.toNat < 2 ^ 16 := bs.rootDirEntries.toNat_lt
  have sectors : bs.sectorSize.toNat < 2 ^ 16 := bs.sectorSize.toNat_lt
  have product : ofUshort bs.rootDirEntries * 32 = .ofInt (bs.rootDirEntries.toNat * 32 : Nat) := by
    rw [ofUshort_eq, Int.natCast_mul, Int32.ofInt_mul]
    rfl
  rw [product, ofUshort_eq, Int.natCast_ediv, ← Int.tdiv_eq_ediv_of_nonneg (by omega)]
  apply (Int32.ofInt_tdiv _ _ _ _).symm
  all_goals simp only [Int32.toInt_minValue, Int32.toInt_maxValue]; omega

theorem firstDataSector32_eq :
    firstDataSector32 startSector bs = .ofInt (firstDataSector startSector bs) := by
  unfold firstDataSector32 firstDataSector
  rw [rootSectors_eq]
  simp only [UInt32.toInt32_mul, UInt32.toInt32_add, Int32.toInt32_toUInt32, toInt32_eq startSector,
    toUInt32_toInt32_eq, ofUchar_eq, ofUshort_eq, Int32.ofInt_add, Int32.ofInt_mul]

theorem clusterOffset32_eq (cluster : Nat) :
    clusterOffset32 startSector bs (.ofNat cluster) =
      .ofInt (clusterOffset startSector bs cluster) := by
  unfold clusterOffset32 clusterOffset
  rw [firstDataSector32_eq, ← Int32.ofInt_eq_ofNat]
  simp only [ofUshort_eq, ofUchar_eq, Int32.ofInt_add, Int32.ofInt_mul, Int32.ofInt_sub]
  rfl

/-! ### The offsets of the model -/

theorem Volume.clusterOffset_eq (volume : Volume) (cluster : Nat) :
    volume.clusterOffset cluster =
      (clusterOffset32 volume.startSector volume.bs (.ofNat cluster)).toInt := by
  rw [clusterOffset32_eq, toInt_ofInt]
  rfl

theorem Volume.fatEntryOffset_eq (volume : Volume) (cluster : Nat) :
    volume.fatEntryOffset cluster =
      (fatEntryOffset32 volume.startSector volume.bs (.ofNat cluster)).toInt := by
  rw [fatEntryOffset32_eq, toInt_ofInt]
  rfl

/-- The seek from the boot sector, in `int`. -/
theorem rootSeek32_eq : (ofUshort bs.reservedSectors - 1 +
    ofUshort bs.fatSizeSectors * ofUchar bs.numberOfFats) * ofUshort bs.sectorSize =
      .ofInt (rootSeek bs) := by
  unfold rootSeek
  simp only [ofUshort_eq, ofUchar_eq, Int32.ofInt_add, Int32.ofInt_mul, Int32.ofInt_sub]
  rfl

/-- `main` computes `rootDirectoryOffset32` if it reads a whole boot sector. -/
theorem mount_rootDirectoryOffset32 {image : Image} {uninitialised : Bytes}
    (whole : (512 * (mount image uninitialised).startSector).toNat + bootSectorSize ≤ image.size) :
    (mount image uninitialised).rootDirectoryOffset =
      (rootDirectoryOffset32 (mount image uninitialised).startSector
        (mount image uninitialised).bs).toInt := by
  unfold rootDirectoryOffset32
  dsimp only
  rw [rootSeek32_eq, toInt_ofInt, ← Int32.ofInt_eq_ofNat, toInt_ofInt]
  generalize start : (mount image uninitialised).startSector = startSector at *
  generalize boot : (mount image uninitialised).bs = bs at *
  unfold mount at start boot ⊢
  dsimp only at start boot ⊢
  rw [start] at boot ⊢
  rw [boot]
  have product : (512 * startSector).toNat = 512 * startSector.toNat % 2 ^ 32 :=
    UInt32.toNat_mul 512 startSector
  have sought (position : Nat) : fseek ((512 * startSector.toNat : Nat) % 2 ^ 32) position =
      (512 * startSector).toNat := by
    rw [product, fseek, if_pos (by omega)]
    omega
  have atBoot : fseek (512 * startSector).toNat 0 = (512 * startSector).toNat := rfl
  have read : min bootSectorSize (image.size - (512 * startSector).toNat) = bootSectorSize := by
    omega
  simp only [sought, atBoot, fread, read]

/-! ### Exact offsets -/

/-- A data cluster of a FAT16 volume with sectors of 512 bytes, which occupies `length`
sectors from `start_sector` on. -/
structure DataCluster (startSector : UInt32) (bs : Fat16BootSector) (length cluster : Nat) :
    Prop where
  sectorSize : bs.sectorSize = 512
  sectorsPerCluster : 0 < bs.sectorsPerCluster
  reservedSectors : 0 < bs.reservedSectors
  numberOfFats : 0 < bs.numberOfFats
  /-- Both numbers are those of one partition entry. -/
  onDisk : startSector.toNat + length ≤ 2 ^ 32
  first : 2 ≤ cluster
  last : cluster < 0xFFF8
  /-- Each FAT has an entry for the cluster. -/
  inFat : (cluster + 1) * 2 ≤ bs.fatSizeSectors.toNat * 512
  /-- The volume holds its sectors. -/
  inVolume : bs.reservedSectors.toNat + bs.numberOfFats.toNat * bs.fatSizeSectors.toNat +
    bs.rootDirEntries.toNat * 32 / 512 + (cluster - 1) * bs.sectorsPerCluster.toNat ≤ length

/-- The sector a cluster begins at. -/
def clusterSector (startSector : UInt32) (bs : Fat16BootSector) (cluster : Nat) : Nat :=
  startSector.toNat + bs.reservedSectors.toNat +
    bs.numberOfFats.toNat * bs.fatSizeSectors.toNat + bs.rootDirEntries.toNat * 32 / 512 +
    (cluster - 2) * bs.sectorsPerCluster.toNat

/-- The four offsets are those of the formulas in exact integers. -/
structure OffsetsExact (startSector : UInt32) (bs : Fat16BootSector) (cluster : Nat) : Prop where
  root : (rootDirectoryOffset32 startSector bs).toInt = rootOffset startSector bs
  data : (firstDataSector32 startSector bs).toInt = firstDataSector startSector bs
  inCluster : (clusterOffset32 startSector bs (.ofNat cluster)).toInt =
    clusterOffset startSector bs cluster
  fat : (fatEntryOffset32 startSector bs (.ofNat cluster)).toInt =
    fatEntryOffset startSector bs cluster

/-- Two seeks that stay below 2 GiB lead to the root directory. -/
theorem rootDirectoryOffset32_exact (behindBoot : 0 ≤ rootSeek bs)
    (inRange : rootOffset startSector bs < 2 ^ 31) :
    (rootDirectoryOffset32 startSector bs).toInt = rootOffset startSector bs := by
  unfold rootDirectoryOffset32 rootOffset bootSectorSize at *
  dsimp only
  have product : (512 * startSector).toNat = 512 * startSector.toNat % 2 ^ 32 :=
    UInt32.toNat_mul 512 startSector
  have small : 512 * startSector.toNat < 2 ^ 32 := by omega
  have atBoot : fseek (512 * startSector).toNat 0 = 512 * startSector.toNat := by
    rw [product, Nat.mod_eq_of_lt small]
    rfl
  have seek : int32 (rootSeek bs) = rootSeek bs := int32_of_range (by omega) (by omega)
  rw [rootSeek32_eq, toInt_ofInt, seek, atBoot, ← Int32.ofInt_eq_ofNat, toInt_ofInt, fseek,
    if_pos (by omega)]
  rw [int32_of_range (by omega) (by omega)]
  omega

/-- What `main` computes is the formula, on an image that holds the boot sector
and whose root directory lies below 2 GiB. -/
theorem mount_rootDirectoryOffset {image : Image} {uninitialised : Bytes}
    (holdsBoot : 512 * (mount image uninitialised).startSector.toNat + bootSectorSize ≤ image.size)
    (behindBoot : 0 ≤ rootSeek (mount image uninitialised).bs)
    (inRange : rootOffset (mount image uninitialised).startSector (mount image uninitialised).bs <
      2 ^ 31) :
    (mount image uninitialised).rootDirectoryOffset =
      rootOffset (mount image uninitialised).startSector (mount image uninitialised).bs := by
  rw [← rootDirectoryOffset32_exact behindBoot inRange]
  apply mount_rootDirectoryOffset32
  have product := UInt32.toNat_mul 512 (mount image uninitialised).startSector
  have wrapped := Nat.mod_le (512 * (mount image uninitialised).startSector.toNat) (2 ^ 32)
  exact Nat.le_trans (Nat.add_le_add_right (product.trans_le wrapped) _) holdsBoot

section Order

variable {length cluster : Nat} (data : DataCluster startSector bs length cluster)

include data

theorem DataCluster.sectorBytes : bs.sectorSize.toNat = 512 := by
  rw [data.sectorSize]
  rfl

theorem DataCluster.clusterOffset_eq :
    clusterOffset startSector bs cluster = 512 * clusterSector startSector bs cluster := by
  obtain ⟨count, rfl⟩ := Nat.exists_eq_add_of_le data.first
  unfold clusterOffset firstDataSector clusterSector
  rw [data.sectorBytes, Nat.add_sub_cancel_left]
  push_cast
  ring

/-- The offsets lie in this order. -/
theorem DataCluster.order :
    0 ≤ rootSeek bs ∧ 0 ≤ fatEntryOffset startSector bs cluster ∧
      fatEntryOffset startSector bs cluster ≤ rootOffset startSector bs ∧
      rootOffset startSector bs ≤ firstDataSector startSector bs ∧
      firstDataSector startSector bs ≤ clusterOffset startSector bs cluster := by
  have oneFat : bs.fatSizeSectors.toNat ≤ bs.fatSizeSectors.toNat * bs.numberOfFats.toNat :=
    Nat.le_mul_of_pos_right _ data.numberOfFats
  have reserved : 0 < bs.reservedSectors.toNat := data.reservedSectors
  have inFat := data.inFat
  refine ⟨?_, ?_, ?_, ?_, firstDataSector_le data.first⟩
  · unfold rootSeek
    rw [data.sectorBytes]
    omega
  · unfold fatEntryOffset fatStart
    positivity
  · unfold fatEntryOffset fatStart rootOffset rootSeek bootSectorSize
    rw [data.sectorBytes]
    omega
  · unfold rootOffset rootSeek bootSectorSize firstDataSector
    rw [data.sectorBytes, mul_comm (bs.numberOfFats.toNat : Int)]
    omega

end Order

/-- For every data cluster the four offsets are exact exactly if it begins below 2 GiB. -/
theorem offsets_exact_iff (startSector : UInt32) (bs : Fat16BootSector) (length cluster : Nat)
    (data : DataCluster startSector bs length cluster) :
    OffsetsExact startSector bs cluster ↔ clusterSector startSector bs cluster < 2 ^ 22 := by
  have bytes := data.clusterOffset_eq
  constructor
  · intro agree
    have bounded := Int32.toInt_lt (clusterOffset32 startSector bs (.ofNat cluster))
    rw [agree.inCluster, bytes] at bounded
    omega
  · intro below
    have inRange : clusterOffset startSector bs cluster < 2 ^ 31 := by
      rw [bytes]
      omega
    obtain ⟨behindBoot, nonneg, fatRoot, rootData, dataCluster⟩ := data.order
    constructor
    · exact rootDirectoryOffset32_exact behindBoot (by omega)
    · rw [firstDataSector32_eq, toInt_ofInt, int32_of_range (by omega) (by omega)]
    · rw [clusterOffset32_eq, toInt_ofInt, int32_of_range (by omega) inRange]
    · rw [fatEntryOffset32_eq, toInt_ofInt, int32_of_range (by omega) (by omega)]

/-- A volume of 8 MiB with one sector in a cluster. -/
def smallVolume : Fat16BootSector where
  sectorSize := 512
  sectorsPerCluster := 1
  reservedSectors := 1
  numberOfFats := 2
  rootDirEntries := 512
  fatSizeSectors := 64

theorem smallVolume_dataCluster {startSector : UInt32} (onDisk : startSector.toNat ≤ 2 ^ 31) :
    DataCluster startSector smallVolume 16384 2 := by
  constructor
  case onDisk => omega
  all_goals decide

/-- Behind 2048 other sectors, the offsets of `smallVolume` are exact. -/
theorem offsets_exact_smallVolume : OffsetsExact 2048 smallVolume 2 :=
  (offsets_exact_iff 2048 smallVolume 16384 2 (smallVolume_dataCluster (by decide))).mpr
    (by decide)

/-- Behind 2 GiB the offsets of `smallVolume` wrap. -/
theorem offsets_wrap :
    ¬ ∀ (startSector : UInt32) (bs : Fat16BootSector) (length cluster : Nat),
      DataCluster startSector bs length cluster → OffsetsExact startSector bs cluster := by
  intro claimed
  have data : DataCluster 4194304 smallVolume 16384 2 := smallVolume_dataCluster (by decide)
  have below := (offsets_exact_iff _ _ _ _ data).mp (claimed _ _ _ _ data)
  exact absurd below (by decide)

end Ivos.Fat
