import ExFatSlim.Allocation

namespace ExFatSlim

def rawEntryLen : Nat := 32

abbrev RawDirEntry := Block rawEntryLen

inductive EntryType where
  | endOfDirectory
  | unused (x : UInt8)
  | allocationBitmap
  | upcaseTable
  | volumeLabel
  | fileAndDirectory
  | volumeGuid
  | texFATPadding
  | streamExtension
  | filename
  | reserved (x : UInt8)
  deriving DecidableEq, Repr

/-- `EntryType::from`. -/
def EntryType.ofByte (value : UInt8) : EntryType :=
  if value = 0x00 then .endOfDirectory
  else if value &&& 0x80 = 0 then .unused value
  else if value = 0x81 then .allocationBitmap
  else if value = 0x82 then .upcaseTable
  else if value = 0x83 then .volumeLabel
  else if value = 0x85 then .fileAndDirectory
  else if value = 0xA0 then .volumeGuid
  else if value = 0xA1 then .texFATPadding
  else if value = 0xC0 then .streamExtension
  else if value = 0xC1 then .filename
  else .reserved value

def EntryType.serialize : EntryType → UInt8
  | .endOfDirectory => 0x00
  | .unused x => x
  | .allocationBitmap => 0x81
  | .upcaseTable => 0x82
  | .volumeLabel => 0x83
  | .fileAndDirectory => 0x85
  | .volumeGuid => 0xA0
  | .texFATPadding => 0xA1
  | .streamExtension => 0xC0
  | .filename => 0xC1
  | .reserved x => x

/-- The defined bits of `FileAttributes`; the others are truncated away on reading. -/
structure FileAttributes where
  readOnly : Bool := false
  hidden : Bool := false
  system : Bool := false
  directory : Bool := false
  archive : Bool := false
  deriving DecidableEq, Repr

def FileAttributes.fromBitsTruncate (bits : Nat) : FileAttributes where
  readOnly := bits.testBit 0
  hidden := bits.testBit 1
  system := bits.testBit 2
  directory := bits.testBit 4
  archive := bits.testBit 5

def FileAttributes.bits (a : FileAttributes) : Nat :=
  a.readOnly.toNat + a.hidden.toNat * 2 + a.system.toNat * 4 + a.directory.toNat * 16
    + a.archive.toNat * 32

/-- `contains`: every bit of `b` is set in `a`. -/
def FileAttributes.contains (a b : FileAttributes) : Bool :=
  (!b.readOnly || a.readOnly) && (!b.hidden || a.hidden) && (!b.system || a.system)
    && (!b.directory || a.directory) && (!b.archive || a.archive)

def attrDirectory : FileAttributes := { directory := true }
def attrArchive : FileAttributes := { archive := true }

/-- The defined bits of `GeneralSecondaryFlags`. -/
structure GeneralSecondaryFlags where
  allocationPossible : Bool := false
  noFatChain : Bool := false
  deriving DecidableEq, Repr

def GeneralSecondaryFlags.fromBitsTruncate (bits : Nat) : GeneralSecondaryFlags where
  allocationPossible := bits.testBit 0
  noFatChain := bits.testBit 1

def GeneralSecondaryFlags.bits (f : GeneralSecondaryFlags) : Nat :=
  f.allocationPossible.toNat + f.noFatChain.toNat * 2

structure Location where
  /-- the absolute sector_id -/
  sectorId : Nat
  /-- number of 32 byte directory entries to skip -/
  dirEntryOffset : Nat
  deriving DecidableEq, Repr

structure FileDirEntry where
  secondaryCount : Nat
  setChecksum : Nat
  fileAttributes : FileAttributes
  createTimestamp : Nat
  lastModifiedTimestamp : Nat
  lastAccessedTimestamp : Nat
  create10msIncrement : Nat
  lastModified10msIncrement : Nat
  createUtcOffset : Nat
  lastModifiedUtcOffset : Nat
  lastAccessedUtcOffset : Nat
  deriving DecidableEq, Repr

def zeroEntry : RawDirEntry := fun _ => 0

def FileDirEntry.serialize (e : FileDirEntry) : RawDirEntry :=
  zeroEntry.patch 0 [EntryType.serialize .fileAndDirectory]
    |>.patch 1 (leBytes 1 e.secondaryCount)
    |>.patch 2 (leBytes 2 e.setChecksum)
    |>.patch 4 (leBytes 2 e.fileAttributes.bits)
    |>.patch 8 (leBytes 4 e.createTimestamp)
    |>.patch 12 (leBytes 4 e.lastModifiedTimestamp)
    |>.patch 16 (leBytes 4 e.lastAccessedTimestamp)
    |>.patch 20 (leBytes 1 e.create10msIncrement)
    |>.patch 21 (leBytes 1 e.lastModified10msIncrement)
    |>.patch 22 (leBytes 1 e.createUtcOffset)
    |>.patch 23 (leBytes 1 e.lastModifiedUtcOffset)
    |>.patch 24 (leBytes 1 e.lastAccessedUtcOffset)

def FileDirEntry.ofRaw (value : RawDirEntry) : FileDirEntry where
  secondaryCount := value.le 1 1
  setChecksum := value.le 2 2
  fileAttributes := .fromBitsTruncate (value.le 4 2)
  createTimestamp := value.le 8 4
  lastModifiedTimestamp := value.le 12 4
  lastAccessedTimestamp := value.le 16 4
  create10msIncrement := value.le 20 1
  lastModified10msIncrement := value.le 21 1
  createUtcOffset := value.le 22 1
  lastModifiedUtcOffset := value.le 23 1
  lastAccessedUtcOffset := value.le 24 1

def FileDirEntry.created (e : FileDirEntry) : EncodedTimestamp where
  packed := e.createTimestamp
  increment10ms := e.create10msIncrement
  utcOffset := e.createUtcOffset

def FileDirEntry.modified (e : FileDirEntry) : EncodedTimestamp where
  packed := e.lastModifiedTimestamp
  increment10ms := e.lastModified10msIncrement
  utcOffset := e.lastModifiedUtcOffset

def FileDirEntry.accessed (e : FileDirEntry) : EncodedTimestamp where
  packed := e.lastAccessedTimestamp
  increment10ms := 0
  utcOffset := e.lastAccessedUtcOffset

structure StreamExtensionDirEntry where
  generalSecondaryFlags : GeneralSecondaryFlags
  nameLength : Nat
  nameHash : Nat
  validDataLength : Nat
  firstCluster : Nat
  dataLength : Nat
  deriving DecidableEq, Repr

def StreamExtensionDirEntry.serialize (e : StreamExtensionDirEntry) : RawDirEntry :=
  zeroEntry.patch 0 [EntryType.serialize .streamExtension]
    |>.patch 1 (leBytes 1 e.generalSecondaryFlags.bits)
    |>.patch 3 (leBytes 1 e.nameLength)
    |>.patch 4 (leBytes 2 e.nameHash)
    |>.patch 8 (leBytes 8 e.validDataLength)
    |>.patch 20 (leBytes 4 e.firstCluster)
    |>.patch 24 (leBytes 8 e.dataLength)

def StreamExtensionDirEntry.ofRaw (value : RawDirEntry) : StreamExtensionDirEntry where
  generalSecondaryFlags := .fromBitsTruncate (value.le 1 1)
  nameLength := value.le 3 1
  nameHash := value.le 4 2
  validDataLength := value.le 8 8
  firstCluster := value.le 20 4
  dataLength := value.le 24 8

/-- The file name entry of a chunk of at most 15 units, zero padded. -/
def fileNameSerialize (units : List Nat) : RawDirEntry :=
  zeroEntry.patch 0 [EntryType.serialize .filename]
    |>.patch 2 (units.flatMap (leBytes 2))

/-- The 15 units of a file name entry. -/
def fileNameOfRaw (value : RawDirEntry) : List Nat :=
  (List.range 15).map fun k => value.le (2 + 2 * k) 2

structure FileDetails where
  firstCluster : Nat
  dataLength : Nat
  validDataLength : Nat
  attributes : FileAttributes
  location : Location
  flags : GeneralSecondaryFlags
  secondaryCount : Nat
  created : EncodedTimestamp
  modified : EncodedTimestamp
  accessed : EncodedTimestamp
  deriving DecidableEq, Repr

def isEndOfDirectory (entry : RawDirEntry) : Bool := (List.finRange rawEntryLen).all fun i => entry i == 0

/-- A reader of 32 byte entries, cluster after cluster. -/
structure DirectoryEntryChain (size : Nat) where
  clusterId : Nat
  fs : FileSystemDetails
  clusterOffset : Nat
  dirEntryOffset : Nat
  buf : Block size
  fetchRequired : Bool
  cursor : Nat
  numEntries : Option Nat

/-- A file system with the directory reader that an operation moves. -/
structure Scan (size n : Nat) where
  fs : FileSystem size n
  chain : DirectoryEntryChain size

namespace DirectoryEntryChain

variable {size n : Nat}

def newFromFileDetails {σ : Type} (details : FileDetails) (fs : FileSystemDetails) :
    ExFat σ (DirectoryEntryChain size) := do
  let sectorIdFromStart ← minus details.location.sectorId fs.clusterHeapOffset
  pure {
    clusterId := 2 + sectorIdFromStart / fs.sectorsPerCluster
    fs
    clusterOffset := sectorIdFromStart % fs.sectorsPerCluster
    dirEntryOffset := details.location.dirEntryOffset
    buf := fun _ => 0
    fetchRequired := true
    cursor := 0
    numEntries := some (details.secondaryCount + 1) }

def new (clusterId : Nat) (fs : FileSystemDetails) : DirectoryEntryChain size where
  clusterId := clusterId
  fs := fs
  clusterOffset := 0
  dirEntryOffset := 0
  buf := fun _ => 0
  fetchRequired := true
  cursor := 0
  numEntries := none

def dirEntriesPerBlock (size : Nat) : Nat := size / rawEntryLen

def getCurrentSectorId : ExFat (Scan size n) Nat := do
  let chain := (← get).chain
  let sectorId ← chain.fs.getHeapSectorId chain.clusterId
  u32 (sectorId + chain.clusterOffset)

def onFs {α : Type} (m : ExFat (FileSystem size n) α) : ExFat (Scan size n) α :=
  Exec.zoom Scan.fs (fun fs s => { s with fs }) m

def modifyChain (f : DirectoryEntryChain size → DirectoryEntryChain size) : ExFat (Scan size n) Unit :=
  modify fun s => { s with chain := f s.chain }

/-- Moves on to the next sector and cluster where that is due; `false` at the
end of the cluster chain. The FAT is followed whatever the flags of the directory say. -/
def turnPage : ExFat (Scan size n) Bool := do
  if dirEntriesPerBlock size ≤ (← get).chain.dirEntryOffset then
    modifyChain fun c => { c with
      clusterOffset := c.clusterOffset + 1, dirEntryOffset := 0, fetchRequired := true }
  let chain := (← get).chain
  if chain.fs.sectorsPerCluster ≤ chain.clusterOffset then
    match ← onFs (Fat.nextClusterInFatChain chain.clusterId) with
    | some clusterId =>
      modifyChain fun c => { c with
        clusterId, clusterOffset := 0, dirEntryOffset := 0, fetchRequired := true }
      pure true
    | none => pure false
  else pure true

/-- `next`. -/
def next : ExFat (Scan size n) (Option (RawDirEntry × Location)) := do
  let chain := (← get).chain
  if chain.numEntries = some chain.cursor then return none
  if !(← turnPage) then return none
  if (← get).chain.fetchRequired then
    let sectorId ← getCurrentSectorId
    let b ← onFs (FileSystem.onCache .data (SlotCache.read sectorId))
    modifyChain fun c => { c with buf := b, fetchRequired := false }
  let chain := (← get).chain
  Exec.assert (chain.dirEntryOffset < dirEntriesPerBlock size)
  let sectorId ← getCurrentSectorId
  modifyChain fun c => { c with dirEntryOffset := c.dirEntryOffset + 1, cursor := c.cursor + 1 }
  pure (some (chain.buf.chunk rawEntryLen chain.dirEntryOffset,
    ⟨sectorId, chain.dirEntryOffset⟩))

/-- `next_file_dir_entry`, over at most `fuel` entries. -/
def nextFileDirEntry : Nat → ExFat (Scan size n) (Option (FileDirEntry × Location))
  | 0 => Exec.diverge
  | fuel + 1 => do
    match ← next with
    | none => pure none
    | some (entry, location) =>
      match EntryType.ofByte (entry.byte 0) with
      | .endOfDirectory =>
        if isEndOfDirectory entry then pure none else nextFileDirEntry fuel
      | .fileAndDirectory => pure (some (.ofRaw entry, location))
      | _ => nextFileDirEntry fuel

end DirectoryEntryChain

/-- `trait DirectoryEntryFilter`. -/
structure DirectoryEntryFilter where
  hash : Nat → FileAttributes → Bool
  fileNameLength : Nat → Bool
  fileName : List Nat → Nat → UpcaseTable → Bool

/-- `core::char::decode_utf16`: the characters, `none` for an unpaired surrogate. -/
def decodeUtf16 : List Nat → List (Option Char)
  | [] => []
  | u :: rest =>
    if u < 0xD800 ∨ 0xDFFF < u then some (Char.ofNat u) :: decodeUtf16 rest
    else if 0xDC00 ≤ u then none :: decodeUtf16 rest
    else match rest with
      | [] => [none]
      | u2 :: rest' =>
        if 0xDC00 ≤ u2 ∧ u2 ≤ 0xDFFF then
          some (Char.ofNat ((u - 0xD800) * 0x400 + (u2 - 0xDC00) + 0x10000)) :: decodeUtf16 rest'
        else none :: decodeUtf16 (u2 :: rest')

/-- The loop of `decode_utf16_to_utf8`; `out` are the bytes written so far. -/
def decodeChars {σ : Type} (capacity : Nat) : List (Option Char) → List UInt8 → ExFat σ (List UInt8)
  | [], out => pure out
  | none :: _, _ =>
    Exec.raise (.invalidUtf16String "file name contains an invalid utf16 character")
  | some ch :: rest, out =>
    let encoded := String.utf8EncodeChar ch
    if out.length + encoded.length ≤ capacity then decodeChars capacity rest (out ++ encoded)
    else Exec.raise .fileNameBufferTooSmall

/-- `decode_utf16_to_utf8` into a buffer of `capacity` bytes. -/
def decodeUtf16ToUtf8 {σ : Type} (utf16 : List Nat) (capacity : Nat) : ExFat σ (List UInt8) :=
  decodeChars capacity (decodeUtf16 utf16) []

namespace DirectoryEntryChain

variable {size n : Nat}

/-- The inner loop of `next_file_entry` over the name entries: the units of the
name if they all pass the filter, `none` for `continue 'outer`, and nothing at
all when the set ends too early. -/
def nameEntries (filter : DirectoryEntryFilter) (nameLength : Nat) :
    Nat → List Nat → ExFat (Scan size n) (Option (Option (List Nat)))
  | 0, _ => Exec.diverge
  | rounds + 1, units => do
    match ← next with
    | none => pure none
    | some (entry, _) =>
      if EntryType.ofByte (entry.byte 0) = .filename then
        let part := (fileNameOfRaw entry).take (min (nameLength - units.length) 15)
        if filter.fileName part units.length (← get).fs.upcaseTable then
          let units := units ++ part
          if units.length = nameLength then pure (some (some units))
          else nameEntries filter nameLength rounds units
        else pure (some none)
      else pure none

/-- `next_file_entry`. The second component of the result is the file name in
UTF-8, empty without a name buffer. -/
def nextFileEntry (filter : DirectoryEntryFilter) (nameBuf : Option Nat) :
    Nat → ExFat (Scan size n) (Option (FileDetails × List UInt8))
  | 0 => Exec.diverge
  | fuel + 1 => do
    match ← nextFileDirEntry (fuel + 1) with
    | none => pure none
    | some (fileDirEntry, location) =>
      match ← next with
      | none => pure none
      | some (entry, _) =>
        if EntryType.ofByte (entry.byte 0) = .streamExtension then
          let streamEntry := StreamExtensionDirEntry.ofRaw entry
          if !filter.hash streamEntry.nameHash fileDirEntry.fileAttributes then
            nextFileEntry filter nameBuf fuel
          else if !filter.fileNameLength streamEntry.nameLength then
            nextFileEntry filter nameBuf fuel
          else
            match ← nameEntries filter streamEntry.nameLength (streamEntry.nameLength + 1) [] with
            | none => pure none
            | some none => nextFileEntry filter nameBuf fuel
            | some (some units) =>
              let name ← match nameBuf with
                | some capacity => decodeUtf16ToUtf8 units capacity
                | none => pure []
              pure (some ({
                attributes := fileDirEntry.fileAttributes
                dataLength := streamEntry.dataLength
                validDataLength := streamEntry.validDataLength
                firstCluster := streamEntry.firstCluster
                location
                flags := streamEntry.generalSecondaryFlags
                secondaryCount := fileDirEntry.secondaryCount
                accessed := fileDirEntry.accessed
                created := fileDirEntry.created
                modified := fileDirEntry.modified }, name))
        else pure none

end DirectoryEntryChain

structure DirSetWriter where
  start : Location
  current : Location
  checksum : Nat
  deriving DecidableEq, Repr

namespace DirSetWriter

variable {size n : Nat}

def new (location : Location) : DirSetWriter where
  start := location
  current := location
  checksum := 0

/-- `next_dir_entry_location`: the sector after the last one of a cluster
belongs to whatever comes next on the device. -/
def nextDirEntryLocation {σ : Type} (size : Nat) (w : DirSetWriter) : ExFat σ DirSetWriter :=
  if w.current.dirEntryOffset + 1 = size / rawEntryLen then do
    let sectorId ← u32 (w.current.sectorId + 1)
    pure { w with current := ⟨sectorId, 0⟩ }
  else pure { w with current := { w.current with dirEntryOffset := w.current.dirEntryOffset + 1 } }

/-- `checksum.rotate_right(1).wrapping_add(b)`. -/
def checksumByte (checksum : Nat) (b : UInt8) : Nat :=
  (checksum % 2 * 0x8000 + checksum / 2 + b.toNat) % 2 ^ 16

def calcChecksum (checksum : Nat) (raw : RawDirEntry) (isFileDir : Bool) : Nat :=
  (List.finRange rawEntryLen).foldl (fun sum i =>
    if isFileDir ∧ (i.val = 2 ∨ i.val = 3) then sum else checksumByte sum (raw i)) checksum

def addNoWrite {σ : Type} (size : Nat) (w : DirSetWriter) (dirEntry : RawDirEntry) (isFileDir : Bool) :
    ExFat σ DirSetWriter := do
  let w ← w.nextDirEntryLocation size
  pure { w with checksum := calcChecksum w.checksum dirEntry isFileDir }

def add (w : DirSetWriter) (dirEntry : RawDirEntry) (isFileDir : Bool) :
    ExFat (Session size n) DirSetWriter := do
  let offset := w.current.dirEntryOffset * rawEntryLen
  Exec.assert (offset + rawEntryLen ≤ size)
  let _ ← Session.onCache .data (SlotCache.readMut w.current.sectorId fun b =>
    b.patch offset (dirEntry.slice 0 rawEntryLen))
  Session.insert ⟨.dir, w.current.sectorId⟩
  w.addNoWrite size dirEntry isFileDir

def finish (w : DirSetWriter) (fileDir : RawDirEntry) : ExFat (Session size n) Unit := do
  let offset := w.start.dirEntryOffset * rawEntryLen
  Exec.assert (offset + rawEntryLen ≤ size)
  let _ ← Session.onCache .data (SlotCache.readMut w.start.sectorId fun b =>
    (b.patch offset (fileDir.slice 0 rawEntryLen)).patch (offset + 2) (leBytes 2 w.checksum))
  Session.insert ⟨.dir, w.start.sectorId⟩

end DirSetWriter

end ExFatSlim
