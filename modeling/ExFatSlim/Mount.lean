import ExFatSlim.DirectoryEntry

namespace ExFatSlim

/-- The fields of the boot sector that mounting uses. -/
structure BootSector where
  fatOffset : Nat
  clusterHeapOffset : Nat
  clusterCount : Nat
  firstClusterOfRootDir : Nat
  bytesPerSector : Nat
  sectorsPerCluster : Nat
  deriving DecidableEq, Repr

/-- `check_is_valid`. A sector of less than 512 bytes is indexed past its end. -/
def BootSector.checkIsValid {σ : Type} {size : Nat} (value : Block size) : ExFat σ Unit := do
  Exec.assert (512 ≤ size)
  if value.slice 0 3 ≠ [0xeb, 0x76, 0x90] then Exec.raise (.notExFat .invalidJumpBoot)
  -- "EXFAT   "
  if value.slice 3 8 ≠ [0x45, 0x58, 0x46, 0x41, 0x54, 0x20, 0x20, 0x20] then
    Exec.raise (.notExFat .invalidFileSystemName)
  if value.slice 510 2 ≠ [0x55, 0xaa] then Exec.raise (.notExFat .invalidBootSignature)

def BootSector.tryFrom {σ : Type} {size : Nat} (value : Block size) : ExFat σ BootSector := do
  checkIsValid value
  let bytesPerSectorShift := value.le 108 1
  if bytesPerSectorShift < 9 ∨ 12 < bytesPerSectorShift then
    Exec.raise (.notExFat (.invalidBytesPerSectorShift bytesPerSectorShift))
  let sectorsPerClusterShift := value.le 109 1
  if 25 < bytesPerSectorShift + sectorsPerClusterShift then
    Exec.raise (.notExFat (.invalidSectorsPerClusterShift sectorsPerClusterShift))
  pure {
    fatOffset := value.le 80 4
    clusterHeapOffset := value.le 88 4
    clusterCount := value.le 92 4
    firstClusterOfRootDir := value.le 96 4
    bytesPerSector := 2 ^ bytesPerSectorShift
    sectorsPerCluster := 2 ^ sectorsPerClusterShift }

def FileSystemDetails.new (bootSector : BootSector) : FileSystemDetails where
  clusterHeapOffset := bootSector.clusterHeapOffset
  sectorsPerCluster := bootSector.sectorsPerCluster
  clusterLength := bootSector.bytesPerSector * bootSector.sectorsPerCluster
  clusterCount := bootSector.clusterCount
  fatOffset := bootSector.fatOffset
  firstClusterOfRootDir := bootSector.firstClusterOfRootDir

/-- Collecting characters into a `heapless::String<22>`, which panics when they do not fit. -/
def collectLabel {σ : Type} : List (Option Char) → List UInt8 → ExFat σ (List UInt8)
  | [], out => pure out
  | none :: _, _ => Exec.raise (.directoryEntry "invalid u16 char detected")
  | some ch :: rest, out => do
    Exec.assert ((out ++ String.utf8EncodeChar ch).length ≤ 22)
    collectLabel rest (out ++ String.utf8EncodeChar ch)

/-- `VolumeLabelDirEntry::try_from`: the label in UTF-8. -/
def volumeLabelTryFrom {σ : Type} (value : RawDirEntry) : ExFat σ (List UInt8) := do
  let characterCount := value.le 1 1
  if 11 < characterCount then
    Exec.raise (.directoryEntry "character count exceeds 11")
  collectLabel (decodeUtf16 ((List.range characterCount).map fun k => value.le (2 + 2 * k) 2)) []

/-- What the scan of the root directory's first sector has found: the first
cluster and length of the bitmap, the volume label, the first cluster of the
up-case table. -/
structure RootEntries where
  bitmap : Option (Nat × Nat) := none
  volumeLabel : Option (List UInt8) := none
  upcase : Option Nat := none

/-- The loop over the entries of that sector. -/
def scanRootEntries {σ : Type} : List RawDirEntry → RootEntries → ExFat σ RootEntries
  | [], found => pure found
  | chunk :: rest, found => do
    let kind := EntryType.ofByte (chunk.byte 0)
    if kind = .endOfDirectory ∧ isEndOfDirectory chunk then return found
    let found ← match kind with
      | .allocationBitmap => pure { found with bitmap := some (chunk.le 20 4, chunk.le 24 8) }
      | .volumeLabel => do
        let label ← volumeLabelTryFrom chunk
        pure { found with volumeLabel := some label }
      | .upcaseTable => pure { found with upcase := some (chunk.le 20 4) }
      | _ => pure found
    if found.bitmap.isSome && found.upcase.isSome && found.volumeLabel.isSome then pure found
    else scanRootEntries rest found

namespace FileSystem

variable {size n : Nat}

/-- A read of the device into a buffer of its own, around the caches. -/
def devRead (sectorId : Nat) : ExFat (FileSystem size n) (Block size) := do
  let fs ← get
  set { fs with dev := fs.dev.afterRead }
  if fs.dev.succeeds then pure (fs.dev.fetched sectorId) else Exec.raise .io

/-- `UpcaseTable::load`, the first 128 units of the table's first sector. -/
def loadUpcaseTable (firstCluster : Nat) (details : FileSystemDetails) :
    ExFat (FileSystem size n) UpcaseTable := do
  let sectorId ← details.getHeapSectorId firstCluster
  let block ← devRead sectorId
  pure { mapping := fun i =>
    if i.val < size / 2 then block.le (2 * i.val) 2 else UpcaseTable.default.mapping i }

def mount : ExFat (FileSystem size n) Unit := do
  if (← get).isMounted then return ()
  let bootSector ← BootSector.tryFrom (← devRead 0)
  let details := FileSystemDetails.new bootSector
  let sectorId ← details.getHeapSectorId details.firstClusterOfRootDir
  let data ← devRead sectorId
  let found ← scanRootEntries
    ((List.range (size / rawEntryLen)).map fun k => data.chunk rawEntryLen k) {}
  match found.upcase with
  | none => Exec.raise (.invalidFileSystem "no upcase table found in root dir")
  | some upcaseCluster =>
    if found.volumeLabel.isNone then
      Exec.raise (.invalidFileSystem "no volume label found in root dir")
    match found.bitmap with
    | none => Exec.raise (.invalidFileSystem "no allocation bitmap found in root dir")
    | some (bitmapCluster, bitmapLength) =>
      let upcaseTable ← loadUpcaseTable upcaseCluster details
      modify fun fs => { fs with
        fat := { fs.fat with startOfFatSector := some details.fatOffset }
        allocator := { fs.allocator with
          bitmap := { fs.allocator.bitmap with clusterCount := details.clusterCount } }
        fs := details }
      let firstSector ← details.getHeapSectorId bitmapCluster
      modify fun fs => { fs with
        allocator := { fs.allocator with
          bitmap := { fs.allocator.bitmap with
            firstSector, numSectors := (bitmapLength + size - 1) / size % 2 ^ 32 } }
        upcaseTable
        isMounted := true }

end FileSystem

end ExFatSlim
