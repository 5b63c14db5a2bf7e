import ExFatSlim.Directory
import Mathlib.Data.List.Sort

namespace ExFatSlim

/-- The order in which touched sectors are flushed. -/
def TouchedSector.before (a b : TouchedSector) : Prop :=
  a.kind.rank < b.kind.rank ∨ (a.kind.rank = b.kind.rank ∧ a.sector ≤ b.sector)

instance : DecidableRel TouchedSector.before := fun _ _ => by
  unfold TouchedSector.before
  infer_instance

/-- `FileDirty::sort`. -/
def FileDirty.sort (t : FileDirty) : FileDirty :=
  { t with
    sectors := t.sectors.insertionSort TouchedSector.before
    bounded := by rw [List.length_insertionSort]; exact t.bounded }

namespace Session

variable {size n : Nat} {α : Type}

/-- One round of the loop of `FileDirty::flush`. -/
def flushTouched (item : TouchedSector) : ExFat (Session size n) Unit :=
  match item.kind with
  | .bitmap => onCache .bitmap (SlotCache.flushSector item.sector)
  | .fat => onCache .fat (SlotCache.flushSector item.sector)
  | .data | .dir => onCache .data (SlotCache.flushSector item.sector)
  | .none => pure ()

def flushAllTouched : List TouchedSector → ExFat (Session size n) Unit
  | [] => pure ()
  | item :: rest => do
    flushTouched item
    flushAllTouched rest

/-- `FileDirty::flush`. -/
def flush : ExFat (Session size n) Unit := do
  if (← get).touched.overflowed then
    onCache .fat SlotCache.flush
    onCache .bitmap SlotCache.flush
    onCache .data SlotCache.flush
  else
    -- saved in the order data, bitmap, FAT, directory
    modify fun s => { s with touched := s.touched.sort }
    flushAllTouched (← get).touched.sectors
  modify fun s => { s with touched := .new }

/-- `DirectoryEntryChain::next` for a reader that is held by the caller. -/
def nextEntry (chain : DirectoryEntryChain size) :
    ExFat (Session size n) (Option RawDirEntry × DirectoryEntryChain size) := fun s =>
  match DirectoryEntryChain.next ⟨s.fs, chain⟩ with
  | (.ok found, scan) => (.ok (found.map Prod.fst, scan.chain), { s with fs := scan.fs })
  | (.error e, scan) => (.error e, { s with fs := scan.fs })

/-- What a rewrite does with one entry of a set: leave it on the device, or put
another one in its place. -/
inductive Edit where
  | keep
  | put (entry : RawDirEntry)

/-- The loop that `truncate_file` and `File::flush` run over the entries of a
set, the first of which is kept aside for the checksum. -/
def rewriteEntries (edit : Nat → RawDirEntry → ExFat (Session size n) Edit) :
    Nat → Nat → DirectoryEntryChain size → DirSetWriter → Option RawDirEntry →
      ExFat (Session size n) (DirSetWriter × Option RawDirEntry)
  | 0, _, _, _, _ => Exec.diverge
  | rounds + 1, counter, chain, writer, fileDir => do
    match ← nextEntry chain with
    | (none, _) => pure (writer, fileDir)
    | (some entry, chain) =>
      let first := counter = 0
      match ← edit counter entry with
      | .keep =>
        let writer ← writer.addNoWrite size entry first
        rewriteEntries edit rounds (counter + 1) chain writer (if first then some entry else fileDir)
      | .put entry =>
        let writer ← writer.add entry first
        rewriteEntries edit rounds (counter + 1) chain writer (if first then some entry else fileDir)

/-- Rewrites the entry set of a file and its checksum. -/
def rewriteSet (details : FileDetails) (edit : Nat → RawDirEntry → ExFat (Session size n) Edit) :
    ExFat (Session size n) Unit := do
  let chain ← DirectoryEntryChain.newFromFileDetails details (← get).fs.fs
  let (writer, fileDir) ← rewriteEntries edit (details.secondaryCount + 2) 0 chain
    (.new details.location) none
  match fileDir with
  | some fileDir => writer.finish fileDir
  | none => pure ()

end Session

namespace FileSystem

variable {size n : Nat}

/-- The loop that follows the FAT over `rounds` clusters. -/
def walkFat : Nat → Nat → ExFat (FileSystem size n) Nat
  | 0, clusterId => pure clusterId
  | rounds + 1, clusterId => do
    match ← Fat.nextClusterInFatChain clusterId with
    | some next => walkFat rounds next
    | none => Exec.raise .endOfFatChain

def getClusterIdAt (cursor : Nat) (details : FileDetails) : ExFat (FileSystem size n) Nat := do
  if cursor = 0 then return details.firstCluster
  let numClusters := (cursor - 1) / (← get).fs.clusterLength % 2 ^ 32
  if details.flags.noFatChain then u32 (details.firstCluster + numClusters)
  else walkFat numClusters details.firstCluster

/-- `u64::div_ceil`. -/
def divCeil (a b : Nat) : Nat := (a + b - 1) / b

def getStoredChain (details : FileDetails) : ExFat (FileSystem size n) StoredChain := do
  let clusterCount := divCeil details.dataLength (← get).fs.clusterLength % 2 ^ 32
  if details.firstCluster = noClusterId ∨ clusterCount = 0 then pure .empty
  else if details.flags.noFatChain then pure (.contiguous details.firstCluster clusterCount)
  else
    let last ← getClusterIdAt details.dataLength details
    pure (.fat details.firstCluster last clusterCount)

/-- The loop of `confirm_has_no_children`. -/
def noChildrenIn : Nat → ExFat (Scan size n) Unit
  | 0 => Exec.diverge
  | fuel + 1 => do
    match ← DirectoryEntryChain.next with
    | none => pure ()
    | some (entry, _) =>
      match EntryType.ofByte (entry.byte 0) with
      | .endOfDirectory => if isEndOfDirectory entry then pure () else noChildrenIn fuel
      | .unused _ => noChildrenIn fuel
      | _ => Exec.raise .directoryNotEmpty

def confirmHasNoChildren (fuel : Nat) (details : FileDetails) : ExFat (FileSystem size n) Unit := do
  if details.attributes.contains attrDirectory then
    scanning (.new details.firstCluster (← get).fs) (noChildrenIn fuel)

/-- The loop of `find_empty_dir_entry_set`: where the run of empty entries that
is being read starts, which may be too short when the directory ends. -/
def emptyRunIn (dirEntrySetLen : Nat) :
    Nat → Nat → Option Location → ExFat (Scan size n) (Option Location)
  | 0, _, _ => Exec.diverge
  | fuel + 1, counter, start => do
    match ← DirectoryEntryChain.next with
    | none => pure start
    | some (entry, location) =>
      match EntryType.ofByte (entry.byte 0) with
      | .endOfDirectory | .unused _ =>
        if counter + 1 = dirEntrySetLen then pure (some (start.getD location))
        else emptyRunIn dirEntrySetLen fuel (counter + 1) (some (start.getD location))
      | _ => emptyRunIn dirEntrySetLen fuel 0 none

def findEmptyDirEntrySet (fuel clusterId dirEntrySetLen : Nat) :
    ExFat (FileSystem size n) Location := do
  match ← scanning (.new clusterId (← get).fs) (emptyRunIn dirEntrySetLen fuel 0 none) with
  | some location => pure location
  | none => Exec.raise .directoryFull

end FileSystem

/-- `calc_dir_entry_set_len`. -/
def calcDirEntrySetLen (nameCharCount : Nat) : Nat := 2 + FileSystem.divCeil (nameCharCount % 2 ^ 32) 15

namespace Session

variable {size n : Nat}

/-- The name entries of `create_file_dir_entry_at`, 15 units each. -/
def addNameEntries : Nat → List Nat → DirSetWriter → ExFat (Session size n) DirSetWriter
  | 0, _, writer => pure writer
  | rounds + 1, units, writer =>
    if units.isEmpty then pure writer
    else do
      let writer ← writer.add (fileNameSerialize (units.take 15)) false
      addNameEntries rounds (units.drop 15) writer

def createFileDirEntryAt (fuel : Nat) (name : List Char) (directoryClusterId firstCluster : Nat)
    (fileAttributes : FileAttributes) (streamExtFlags : GeneralSecondaryFlags)
    (validDataLength dataLength : Nat) : ExFat (Session size n) FileDetails := do
  let (nameHash, charCount) ← encodeUtf16UpcaseAndHash name (← get).fs.upcaseTable
  let dirEntrySetLen := calcDirEntrySetLen charCount
  let location ← onFs (FileSystem.findEmptyDirEntrySet fuel directoryClusterId dirEntrySetLen)
  let secondaryCount ← minus (dirEntrySetLen % 2 ^ 8) 1
  let timestamp ← onFs FileSystem.getCurrentTimestamp
  let fileDir := FileDirEntry.serialize {
    secondaryCount
    setChecksum := 0
    fileAttributes
    createTimestamp := timestamp.packed
    lastModifiedTimestamp := timestamp.packed
    lastAccessedTimestamp := timestamp.packed
    create10msIncrement := timestamp.increment10ms
    lastModified10msIncrement := timestamp.increment10ms
    createUtcOffset := timestamp.utcOffset
    lastModifiedUtcOffset := timestamp.utcOffset
    lastAccessedUtcOffset := timestamp.utcOffset }
  let writer ← (DirSetWriter.new location).add fileDir true
  let writer ← writer.add (StreamExtensionDirEntry.serialize {
    generalSecondaryFlags := streamExtFlags
    nameLength := charCount % 2 ^ 8
    nameHash
    validDataLength
    firstCluster
    dataLength }) false
  let writer ← addNameEntries charCount (encodeUtf16 name) writer
  writer.finish fileDir
  pure {
    attributes := fileAttributes
    dataLength
    validDataLength
    firstCluster
    flags := streamExtFlags
    location
    secondaryCount
    accessed := timestamp
    modified := timestamp
    created := timestamp }

/-- `zero_cluster` from `sectorId` on. -/
def zeroSectors : Nat → Nat → ExFat (Session size n) Unit
  | 0, _ => pure ()
  | rounds + 1, sectorId => do
    let _ ← onCache .data (SlotCache.readMut sectorId fun _ _ => 0)
    insert ⟨.dir, sectorId⟩
    zeroSectors rounds (sectorId + 1)

def zeroCluster (clusterId : Nat) : ExFat (Session size n) Unit := do
  let fs := (← get).fs.fs
  let firstSector ← fs.getHeapSectorId clusterId
  let _ ← u32 (firstSector + fs.sectorsPerCluster)
  zeroSectors fs.sectorsPerCluster firstSector

def allocatedFlags : GeneralSecondaryFlags := { allocationPossible := true, noFatChain := true }

/-- The branch of `get_or_create_directory` for a name that is not there yet. -/
def createDirectoryIn (fuel : Nat) (dirName : List Char) (clusterId : Nat) :
    ExFat (Session size n) Nat := do
  let run ← onFs (Allocator.findFreeClusters none 1 .longestRun)
  Allocator.markAllocated run true
  zeroCluster run.firstCluster
  let clusterLength := (← get).fs.fs.clusterLength
  let _ ← createFileDirEntryAt fuel dirName clusterId run.firstCluster attrDirectory allocatedFlags
    clusterLength clusterLength
  pure run.firstCluster

def getOrCreateIn (fuel : Nat) : List (List Char) → Nat → ExFat (Session size n) Nat
  | [], clusterId => pure clusterId
  | dirName :: names, clusterId => do
    match ← onFs (FileSystem.lookupIn fuel clusterId dirName (some attrDirectory)) with
    | some details => getOrCreateIn fuel names details.firstCluster
    | none => do
      let clusterId ← createDirectoryIn fuel dirName clusterId
      getOrCreateIn fuel names clusterId

def getOrCreateDirectory (fuel : Nat) (path : List Char) : ExFat (Session size n) Nat := do
  getOrCreateIn fuel (pathToIter path) (← get).fs.fs.firstClusterOfRootDir

/-- The loop of `mark_directory_entry_set_unused`. -/
def markEntriesUnused : Nat → Location → ExFat (Session size n) Unit
  | 0, _ => pure ()
  | rounds + 1, location => do
    let location ← if location.dirEntryOffset = size / rawEntryLen then do
        let sectorId ← u32 (location.sectorId + 1)
        pure ⟨sectorId, 0⟩
      else pure location
    let offset := location.dirEntryOffset * rawEntryLen
    Exec.assert (offset < size)
    let _ ← onCache .data (SlotCache.readMut location.sectorId fun b =>
      b.patch offset [b.byte offset &&& 0x7F])
    insert ⟨.dir, location.sectorId⟩
    markEntriesUnused rounds { location with dirEntryOffset := location.dirEntryOffset + 1 }

def markDirectoryEntrySetUnused (location : Location) (numEntries : Nat) :
    ExFat (Session size n) Unit :=
  markEntriesUnused numEntries location

/-- What `truncate_file` does to the entries of the set: only the stream
extension changes. -/
def truncateEdit (details : FileDetails) (counter : Nat) (entry : RawDirEntry) :
    ExFat (Session size n) Edit :=
  if counter = 1 then
    pure (.put (StreamExtensionDirEntry.serialize { StreamExtensionDirEntry.ofRaw entry with
      dataLength := details.dataLength
      validDataLength := details.validDataLength
      firstCluster := details.firstCluster }))
  else pure .keep

end Session

namespace FileSystem

variable {size n : Nat}

/-- `truncate_file`, and the details as it leaves them. -/
def truncateFile (details : FileDetails) (length : Nat) : ExFat (FileSystem size n) FileDetails :=
  withTouched do
    -- a length above zero is not implemented
    Exec.assert (length = 0)
    let storedChain ← Session.onFs (getStoredChain details)
    let details := { details with
      dataLength := length
      validDataLength := min details.validDataLength length
      firstCluster := noClusterId }
    Session.rewriteSet details (Session.truncateEdit details)
    Allocator.free storedChain
    Session.flush
    pure details

def createFile (fuel : Nat) (path : List Char) : ExFat (FileSystem size n) FileDetails :=
  withTouched do
    let (dirPath, name) := splitPath path
    let directoryClusterId ← Session.getOrCreateDirectory fuel dirPath
    let details ← Session.createFileDirEntryAt fuel name directoryClusterId noClusterId attrArchive
      Session.allocatedFlags 0 0
    Session.flush
    pure details

def deleteInner (fuel : Nat) (details : FileDetails) : ExFat (FileSystem size n) Unit := do
  confirmHasNoChildren fuel details
  withTouched do
    let chain ← Session.onFs (getStoredChain details)
    Allocator.free chain
    Session.markDirectoryEntrySetUnused details.location (details.secondaryCount + 1)
    Session.flush

end FileSystem

end ExFatSlim
