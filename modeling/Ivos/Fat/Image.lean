/-
Module: Ivos.Fat.Image
Purpose: The disk image, the stream operations on it, the records of `fat.h`
  and what `main` reads before the first command.
Trusted boundary: none
Main exports: Image, Bytes, int32, fseek, fread, Fat16BootSector, Fat16Entry,
  Volume, mount
-/
import Mathlib.Data.Int.Basic
import Mathlib.Tactic.Ring

namespace Ivos.Fat

/-! ### The stream

All commands share the one stream on `sd.img`.  A position behind the end of the image is
allowed, as C allows it; only a negative offset makes `fseek` fail.  The program looks at
no result of `fread`: a read that falls short leaves the rest of its variable as it was.
-/

/-- The bytes of a variable or of a file, by position. -/
abbrev Bytes := Nat → UInt8

/-- The contents of `sd.img`. -/
structure Image where
  size : Nat
  byte : Bytes

/-- An image of zeros but for the bytes given by position. -/
def Image.ofPatches (size : Nat) (patches : List (Nat × List UInt8)) : Image where
  size := size
  byte position :=
    match patches.find? fun patch => patch.1 ≤ position ∧ position < patch.1 + patch.2.length with
    | some patch => patch.2.getD (position - patch.1) 0
    | none => 0

/-- Conversion to a 32-bit `int`.  The sums and products stored in an `int` are
taken exactly and converted once. -/
def int32 (value : Int) : Int :=
  value.bmod (2 ^ 32)

/-- The position after `fseek(in, offset, SEEK_SET)`; a negative offset is
refused. -/
def fseek (offset : Int) (position : Nat) : Nat :=
  if 0 ≤ offset then offset.toNat else position

/-- `fread(&variable, size, 1, in)`: the bytes of the variable afterwards and the
new position.  Past the end of the image the variable keeps what it held. -/
def fread (image : Image) (size position : Nat) (held : Bytes) : Bytes × Nat :=
  (fun index =>
      if index < size ∧ position + index < image.size then image.byte (position + index)
      else held index,
    position + min size (image.size - position))

/-- A read inside the image. -/
theorem fread_of_le {image : Image} {size position : Nat} (inside : position + size ≤ image.size)
    (held : Bytes) :
    fread image size position held =
      (fun index => if index < size then image.byte (position + index) else held index,
        position + size) := by
  unfold fread
  congr 1
  · funext index
    by_cases within : index < size
    · rw [if_pos ⟨within, by omega⟩, if_pos within]
    · rw [if_neg (fun both => within both.1), if_neg within]
  · omega

/-! ### Records

The structs of `fat.h` are packed, so that a record is its bytes and a field sits at a
fixed offset.  Only the fields that a command reads are decoded.
-/

/-- A little-endian `unsigned short` at an offset of a record. -/
def ushort (bytes : Bytes) (offset : Nat) : UInt16 :=
  UInt16.ofNat ((bytes offset).toNat + 256 * (bytes (offset + 1)).toNat)

/-- A little-endian `unsigned int` at an offset of a record. -/
def uint (bytes : Bytes) (offset : Nat) : UInt32 :=
  UInt32.ofNat ((bytes offset).toNat + 256 * (bytes (offset + 1)).toNat +
    65536 * (bytes (offset + 2)).toNat + 16777216 * (bytes (offset + 3)).toNat)

/-- The fields of the boot sector that the commands use. -/
structure Fat16BootSector where
  sectorSize : UInt16
  sectorsPerCluster : UInt8
  reservedSectors : UInt16
  numberOfFats : UInt8
  rootDirEntries : UInt16
  fatSizeSectors : UInt16
deriving Repr, DecidableEq

/-- `sizeof(Fat16BootSector)`. -/
def bootSectorSize : Nat := 512

def Fat16BootSector.decode (bytes : Bytes) : Fat16BootSector where
  sectorSize := ushort bytes 11
  sectorsPerCluster := bytes 13
  reservedSectors := ushort bytes 14
  numberOfFats := bytes 16
  rootDirEntries := ushort bytes 17
  fatSizeSectors := ushort bytes 22

/-- A directory entry. -/
structure Fat16Entry where
  filename : List UInt8
  ext : List UInt8
  attributes : UInt8
  reserved : List UInt8
  modifyTime : UInt16
  modifyDate : UInt16
  startingCluster : UInt16
  fileSize : UInt32
deriving Repr, DecidableEq

/-- `sizeof(Fat16Entry)`. -/
def entrySize : Nat := 32

def Fat16Entry.decode (bytes : Bytes) : Fat16Entry where
  filename := (List.range 8).map bytes
  ext := (List.range 3).map fun index => bytes (8 + index)
  attributes := bytes 11
  reserved := (List.range 10).map fun index => bytes (12 + index)
  modifyTime := ushort bytes 22
  modifyDate := ushort bytes 24
  startingCluster := ushort bytes 26
  fileSize := uint bytes 28

/-- `entry.filename[0]`. -/
def Fat16Entry.firstByte (entry : Fat16Entry) : UInt8 :=
  entry.filename.headD 0

/-- `entry.attributes & 0x10`. -/
def Fat16Entry.isDirectory (entry : Fat16Entry) : Bool :=
  entry.attributes &&& 0x10 ≠ 0

/-- The entry at a position of the image. -/
def Image.entryAt (image : Image) (position : Nat) : Fat16Entry :=
  .decode fun index => image.byte (position + index)

/-- Decoding looks at the first 32 bytes only. -/
theorem Fat16Entry.decode_congr {first second : Bytes}
    (same : ∀ index, index < entrySize → first index = second index) :
    Fat16Entry.decode first = Fat16Entry.decode second := by
  have shorts (offset : Nat) (inside : offset + 1 < entrySize) :
      ushort first offset = ushort second offset := by
    unfold ushort
    rw [same offset (by omega), same (offset + 1) inside]
  have strings (count offset : Nat) (inside : offset + count ≤ entrySize) :
      (List.range count).map (fun index => first (offset + index)) =
        (List.range count).map fun index => second (offset + index) := by
    apply List.map_congr_left
    intro index member
    have within := List.mem_range.mp member
    exact same _ (by omega)
  unfold Fat16Entry.decode
  unfold entrySize at *
  congr 1
  · simpa using strings 8 0 (by omega)
  · exact strings 3 8 (by omega)
  · exact same _ (by omega)
  · exact strings 10 12 (by omega)
  · exact shorts _ (by omega)
  · exact shorts _ (by omega)
  · exact shorts _ (by omega)
  · unfold uint
    rw [same 28 (by omega), same 29 (by omega), same 30 (by omega), same 31 (by omega)]

/-- Reading an entry that lies inside the image. -/
theorem decode_fread {image : Image} {position : Nat}
    (inside : position + entrySize ≤ image.size) (held : Bytes) :
    Fat16Entry.decode (fread image entrySize position held).1 = image.entryAt position ∧
      (fread image entrySize position held).2 = position + entrySize := by
  rw [fread_of_le inside]
  exact ⟨Fat16Entry.decode_congr fun index within => by simp [within], rfl⟩

/-! ### Start-up

`uninitialised` stands for the bytes of a local variable that has not been assigned.  They
show only where a read falls short of the end of the image, and nothing is assumed about
them.  One value serves every variable here; where the commands or the two extraction
loops are compared with each other, each variable gets a value of its own.
-/

/-- What the commands work on: the stream, `pt[0].start_sector`, `bs`,
`root_directory_offset`, and the bytes an uninitialised local variable holds. -/
structure Volume where
  image : Image
  startSector : UInt32
  bs : Fat16BootSector
  rootDirectoryOffset : Int
  uninitialised : Bytes

/-- The seek of `main` from the boot sector to the root directory. -/
def rootSeek (bs : Fat16BootSector) : Int :=
  (bs.reservedSectors.toNat - 1 + bs.fatSizeSectors.toNat * bs.numberOfFats.toNat) *
    bs.sectorSize.toNat

/-- `main` up to the first command. -/
def mount (image : Image) (uninitialised : Bytes) : Volume :=
  let position := fseek 0x1BE 0
  let (pt, position) := fread image (4 * 16) position uninitialised
  let startSector := uint pt 8
  let position := fseek ((512 * startSector.toNat : Nat) % 2 ^ 32) position
  let (bytes, position) := fread image bootSectorSize position uninitialised
  let bs := Fat16BootSector.decode bytes
  let position := fseek (position + int32 (rootSeek bs)) position
  { image := image
    startSector := startSector
    bs := bs
    rootDirectoryOffset := int32 position
    uninitialised := uninitialised }

end Ivos.Fat
