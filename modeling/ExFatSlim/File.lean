import ExFatSlim.FileSystem

namespace ExFatSlim

structure OpenOptions where
  read : Bool := false
  write : Bool := false
  append : Bool := false
  truncate : Bool := false
  create : Bool := false
  createNew : Bool := false
  deriving DecidableEq, Repr

/-- A file handle. -/
structure File where
  details : FileDetails
  currentCluster : Nat
  remainingBytesInCluster : Nat
  cursor : Nat
  openOptions : OpenOptions
  chain : StoredChain
  touched : FileDirty

/-- A file system with the handle that an operation works on. -/
structure FileSession (size n : Nat) where
  fs : FileSystem size n
  file : File

namespace FileSession

variable {size n : Nat} {α : Type}

/-- An operation that records into the touched set of the handle. -/
def onSession (m : ExFat (Session size n) α) : ExFat (FileSession size n) α :=
  Exec.zoom (fun s => ⟨s.fs, s.file.touched⟩)
    (fun t s => ⟨t.fs, { s.file with touched := t.touched }⟩) m

def onFs (m : ExFat (FileSystem size n) α) : ExFat (FileSession size n) α :=
  Exec.zoom FileSession.fs (fun fs s => { s with fs }) m

def modifyFile (f : File → File) : ExFat (FileSession size n) Unit :=
  modify fun s => { s with file := f s.file }

end FileSession

namespace File

variable {size n : Nat}

open FileSession

def new {σ : Type} (details : FileDetails) (clusterId clusterLength : Nat) (openOptions : OpenOptions)
    (chain : StoredChain) : ExFat σ File := do
  let cursor := if openOptions.append then details.validDataLength else 0
  let remainingBytesInCluster ← match chain with
    | .empty => pure 0
    | _ => minus clusterLength (cursor % clusterLength)
  pure {
    details
    currentCluster := clusterId
    remainingBytesInCluster
    cursor
    openOptions
    chain
    touched := .new }

/-- The first cluster of a chain, as `flush` stores it. -/
def firstClusterOf : StoredChain → Nat
  | .empty => noClusterId
  | .contiguous first _ => first
  | .fat first _ _ => first

/-- What `flush` does to the entries of the set. -/
def flushEdit (details : FileDetails) (chain : StoredChain) (counter : Nat) (entry : RawDirEntry) :
    ExFat (Session size n) Session.Edit :=
  if counter = 0 then do
    let timestamp ← Session.onFs FileSystem.getCurrentTimestamp
    pure (.put (FileDirEntry.serialize { FileDirEntry.ofRaw entry with
      lastModifiedTimestamp := timestamp.packed
      lastModified10msIncrement := timestamp.increment10ms
      lastModifiedUtcOffset := timestamp.utcOffset
      lastAccessedTimestamp := timestamp.packed
      lastAccessedUtcOffset := timestamp.utcOffset }))
  else if counter = 1 then
    pure (.put (StreamExtensionDirEntry.serialize { StreamExtensionDirEntry.ofRaw entry with
      firstCluster := firstClusterOf chain
      dataLength := details.dataLength
      validDataLength := details.validDataLength
      generalSecondaryFlags := details.flags }))
  else pure .keep

def flush : ExFat (FileSession size n) Unit := do
  let file := (← get).file
  if file.touched.isDirEntryDirty then
    onSession (Session.rewriteSet file.details (flushEdit file.details file.chain))
  onSession Session.flush

/-- `close`: the handle is gone afterwards. -/
def close : ExFat (FileSession size n) Unit := flush

/-- `eof`. -/
def eof (file : File) : Bool := file.details.dataLength ≤ file.cursor

/-- `move_file_cursor`. -/
def moveFileCursor (numBytes : Nat) : ExFat (FileSession size n) Unit := do
  let file := (← get).file
  let cursor ← u64 (file.cursor + numBytes)
  modifyFile fun file => { file with cursor }
  let remainingBytesInCluster ← minus file.remainingBytesInCluster (numBytes % 2 ^ 32)
  modifyFile fun file => { file with remainingBytesInCluster }

def nextCursorId : ExFat (FileSession size n) Nat := do
  let file := (← get).file
  match file.chain with
  | .empty => Exec.raise .endOfFatChain
  | .contiguous first clusterCount =>
    let cursorId ← u32 (file.currentCluster + 1)
    let endCluster ← u32 (first + clusterCount)
    if first ≤ cursorId ∧ cursorId < endCluster then pure cursorId
    else Exec.raise .endOfFatChain
  | .fat _ _ _ =>
    match ← onFs (Fat.nextClusterInFatChain file.currentCluster) with
    | some clusterId => pure clusterId
    | none => Exec.raise .endOfFatChain

def nextClusterIfRequired : ExFat (FileSession size n) Unit := do
  if (← get).file.remainingBytesInCluster = 0 then
    let currentCluster ← nextCursorId
    modifyFile fun file => { file with currentCluster }
    let clusterLength := (← get).fs.fs.clusterLength
    modifyFile fun file => { file with remainingBytesInCluster := clusterLength }

/-- `get_current_sector_id`: the sector of the cursor within the current cluster. -/
def getCurrentSectorId : ExFat (FileSession size n) Nat := do
  let s ← get
  let startSectorId ← s.fs.fs.getHeapSectorId s.file.currentCluster
  u32 (startSectorId + s.file.cursor % s.fs.fs.clusterLength / size)

/-- The loop of `read` into a buffer of `len` bytes, of which `out` are filled. -/
def readIn (len : Nat) : Nat → List UInt8 → ExFat (FileSession size n) (List UInt8)
  | 0, _ => Exec.diverge
  | rounds + 1, out => do
    let file := (← get).file
    let fileRemainder := file.details.dataLength - file.cursor
    let validRemainder := file.details.validDataLength - file.cursor
    nextClusterIfRequired
    let sectorId ← getCurrentSectorId
    let s ← get
    let sectorOffset := s.file.cursor % s.fs.fs.clusterLength % size
    let chunkBytes := min (min (size - sectorOffset) fileRemainder) (len - out.length)
    let bytes ← if 0 < validRemainder then do
        let chunkBytes := min chunkBytes (validRemainder % 2 ^ s.fs.usizeBits)
        let block ← onFs (FileSystem.onCache .data (SlotCache.read sectorId))
        pure (block.slice sectorOffset chunkBytes)
      else pure (List.replicate chunkBytes 0)
    moveFileCursor bytes.length
    let out := out ++ bytes
    if out.length = len ∨ (← get).file.eof then pure out else readIn len rounds out

/-- `read` into a buffer of `len` bytes: the bytes read. A round that reads
nothing is repeated for ever, so `len` rounds are enough. -/
def read (len : Nat) : ExFat (FileSession size n) (Option (List UInt8)) := do
  onFs FileSystem.mount
  let file := (← get).file
  if !file.openOptions.read then Exec.raise .readNotEnabled
  if file.eof then return none
  if len = 0 then return some []
  let bytes ← readIn len len []
  pure (some bytes)

/-- The loop of `read_to_end_inner`. -/
def readToEndIn (len : Nat) : Nat → List UInt8 → ExFat (FileSession size n) (List UInt8)
  | 0, filled => pure filled
  | rounds + 1, filled => do
    if len ≤ filled.length then pure filled
    else match ← read (len - filled.length) with
      | some bytes => if bytes.isEmpty then pure filled else readToEndIn len rounds (filled ++ bytes)
      | none => pure filled

/-- `read_to_end`: the bytes appended to the caller's buffer. -/
def readToEnd : ExFat (FileSession size n) (List UInt8) := do
  onFs FileSystem.mount
  let s ← get
  let len := (s.file.details.dataLength - s.file.cursor) % 2 ^ s.fs.usizeBits
  if !s.file.openOptions.read then Exec.raise .readNotEnabled
  readToEndIn len len []

/-- `core::str::from_utf8`. -/
def fromUtf8 {σ : Type} (bytes : List UInt8) : ExFat σ String :=
  match String.fromUTF8? ⟨⟨bytes⟩⟩ with
  | some decoded => pure decoded
  | none => Exec.raise .utf8Error

def readToString : ExFat (FileSession size n) String := do
  onFs FileSystem.mount
  let s ← get
  let len := (s.file.details.validDataLength - s.file.cursor) % 2 ^ s.fs.usizeBits
  if !s.file.openOptions.read then Exec.raise .readNotEnabled
  fromUtf8 (← readToEndIn len len [])

def shouldConvertToFatChain (file : File) (run : AllocatedRun) : ExFat (FileSession size n) Bool :=
  match file.chain with
  | .contiguous first len =>
    if file.details.flags.noFatChain then do
      let endCluster ← u32 (first + len)
      pure (endCluster != run.firstCluster)
    else pure false
  | _ => pure false

/-- The loop of `convert_file_to_fat_chain_if_required`: each cluster is linked
to the one after it. -/
def linkContiguous : Nat → Nat → ExFat (Session size n) Unit
  | 0, _ => pure ()
  | rounds + 1, clusterId => do
    Fat.set clusterId (clusterId + 1)
    linkContiguous rounds (clusterId + 1)

def convertFileToFatChainIfRequired : ExFat (FileSession size n) Unit := do
  let file := (← get).file
  if file.details.flags.noFatChain then
    modifyFile fun file => { file with
      details := { file.details with flags := { file.details.flags with noFatChain := false } }
      touched := { file.touched with isDirEntryDirty := true } }
    match file.chain with
    | .contiguous first clusterCount =>
      let endCluster ← u32 (first + clusterCount)
      let tail ← minus endCluster 1
      onSession (linkContiguous (tail - first) first)
    | _ => pure ()

/-- The loop of `update_chain` over the clusters of the run: each is linked
from the one before it. -/
def linkRun : Nat → Option Nat → Nat → ExFat (Session size n) Unit
  | 0, _, _ => pure ()
  | rounds + 1, prevCluster, nextCluster => do
    match prevCluster with
    | some prevCluster => Fat.set prevCluster nextCluster
    | none => pure ()
    linkRun rounds (some nextCluster) (nextCluster + 1)

/-- The last cluster of the chain. -/
def lastCluster : StoredChain → ExFat (FileSession size n) (Option Nat)
  | .empty => pure none
  | .contiguous first clusterCount => do
    let endCluster ← u32 (first + clusterCount)
    let last ← minus endCluster 1
    pure (some last)
  | .fat _ last _ => pure (some last)

/-- `run.first_cluster + run.cluster_count - 1`. -/
def lastOf (run : AllocatedRun) : ExFat (FileSession size n) Nat := do
  let endCluster ← u32 (run.firstCluster + run.clusterCount)
  minus endCluster 1

/-- The end of `update_chain`: the chain of the handle grows by the run. -/
def storeChain (run : AllocatedRun) (hasFatChain : Bool) : StoredChain → ExFat (FileSession size n) Unit
  | .empty => do
    let clusterLength := (← get).fs.fs.clusterLength
    modifyFile fun file => { file with
      chain := .contiguous run.firstCluster run.clusterCount
      currentCluster := run.firstCluster
      remainingBytesInCluster := clusterLength }
  | .contiguous first clusterCount =>
    if hasFatChain then do
      let last ← lastOf run
      let newCount ← u32 (clusterCount + run.clusterCount)
      modifyFile fun file => { file with chain := .fat first last newCount }
    else do
      let newCount ← u32 (clusterCount + run.clusterCount)
      modifyFile fun file => { file with chain := .contiguous first newCount }
  | .fat first _ clusterCount => do
    let last ← lastOf run
    let newCount ← u32 (clusterCount + run.clusterCount)
    modifyFile fun file => { file with chain := .fat first last newCount }

/-- The part of `update_chain` after the conversion. -/
def adoptRun (run : AllocatedRun) : ExFat (FileSession size n) Unit := do
  let file := (← get).file
  let hasFatChain := !file.details.flags.noFatChain
  if hasFatChain then
    let prevCluster ← lastCluster file.chain
    let last ← lastOf run
    onSession (linkRun run.clusterCount prevCluster run.firstCluster)
    onSession (Fat.set last Fat.endOfChain)
  storeChain run hasFatChain file.chain

def updateChain (run : AllocatedRun) : ExFat (FileSession size n) Unit := do
  if ← shouldConvertToFatChain (← get).file run then convertFileToFatChainIfRequired
  adoptRun run

/-- The loop of `allocate_clusters_for`. Every round allocates a cluster at least. -/
def allocateRuns : Nat → Nat → ExFat (FileSession size n) Unit
  | 0, _ => Exec.diverge
  | rounds + 1, clusterCount => do
    let chain := (← get).file.chain
    let run ← onSession (Allocator.allocate chain clusterCount)
    updateChain run
    let clusterCount ← minus clusterCount run.clusterCount
    if clusterCount = 0 then pure () else allocateRuns rounds clusterCount

def allocateClustersFor (numBytes : Nat) : ExFat (FileSession size n) Unit := do
  let clusterCount := FileSystem.divCeil numBytes (← get).fs.fs.clusterLength % 2 ^ 32
  allocateRuns (clusterCount + 1) clusterCount

def updateDataLength (numBytes : Nat) : ExFat (FileSession size n) Unit := do
  let file := (← get).file
  let endOfWrite ← u64 (file.cursor + numBytes)
  let validDataLength := max endOfWrite file.details.validDataLength
  modifyFile fun file => { file with
    details := { file.details with
      validDataLength
      dataLength := max validDataLength file.details.dataLength }
    touched := { file.touched with isDirEntryDirty := true } }

/-- `write_partial_sector`: how many bytes of `buf` went into the sector of the cursor. -/
def writePartialSector (buf : List UInt8) : ExFat (FileSession size n) Nat := do
  if buf.isEmpty then return 0
  let startIndex := (← get).file.cursor % size
  let endIndex := min size (startIndex + buf.length)
  let sectorId ← getCurrentSectorId
  if 0 < startIndex ∨ endIndex < size then
    let len := endIndex - startIndex
    let _ ← onFs (FileSystem.onCache .data (SlotCache.readMut sectorId fun b =>
      b.patch startIndex (buf.take len)))
    onSession (Session.insert ⟨.data, sectorId⟩)
    moveFileCursor len
    pure len
  else pure 0

/-- The full sectors of `write`, each written around the slots of the cache. -/
def writeBlocks : List (Block size) → ExFat (FileSession size n) Unit
  | [] => pure ()
  | block :: rest => do
    nextClusterIfRequired
    let sectorId ← getCurrentSectorId
    onFs (FileSystem.onCache .data (SlotCache.write sectorId block))
    moveFileCursor size
    writeBlocks rest

/-- The blocks of `buf.as_chunks::<SIZE>()`. -/
def blocksOf (size : Nat) (buf : List UInt8) : List (Block size) :=
  (List.range (buf.length / size)).map fun k i => (buf[k * size + i.val]?).getD 0

/-- The remainder of `buf.as_chunks::<SIZE>()`. -/
def remainderOf (size : Nat) (buf : List UInt8) : List UInt8 := buf.drop (buf.length / size * size)

/-- The part of `write` that copies the bytes. -/
def writeBytes (buf : List UInt8) : ExFat (FileSession size n) Unit := do
  nextClusterIfRequired
  let len ← writePartialSector buf
  if len < buf.length then
    writeBlocks (blocksOf size (buf.drop len))
    let _ ← writePartialSector (remainderOf size (buf.drop len))

def write (buf : List UInt8) : ExFat (FileSession size n) Unit := do
  if buf.isEmpty then return ()
  onFs FileSystem.mount
  let s ← get
  if !s.file.openOptions.write then Exec.raise .writeNotEnabled
  let clusterLength := s.fs.fs.clusterLength
  let capacity ← u64 (FileSystem.divCeil s.file.details.dataLength clusterLength * clusterLength)
  let endOfWrite ← u64 (s.file.cursor + buf.length)
  if capacity < endOfWrite then
    allocateClustersFor ((endOfWrite - capacity) % 2 ^ s.fs.usizeBits)
  updateDataLength buf.length
  writeBytes buf

def updateRemainingBytesInCluster : ExFat (FileSession size n) Unit := do
  let s ← get
  let remainingBytesInCluster ← minus s.fs.fs.clusterLength (s.file.cursor % s.fs.fs.clusterLength)
  modifyFile fun file => { file with remainingBytesInCluster }

def seek (cursor : Nat) : ExFat (FileSession size n) Unit := do
  onFs FileSystem.mount
  if (← get).file.details.validDataLength < cursor then Exec.raise .seekOutOfRange
  modifyFile fun file => { file with cursor }
  let s ← get
  let numClusters := cursor / s.fs.fs.clusterLength % 2 ^ 32
  match s.file.chain with
  | .empty =>
    modifyFile fun file => { file with
      currentCluster := file.details.firstCluster
      remainingBytesInCluster := 0 }
  | .contiguous first _ =>
    let currentCluster ← u32 (first + numClusters)
    modifyFile fun file => { file with currentCluster }
    updateRemainingBytesInCluster
  | .fat first _ _ =>
    let currentCluster ← onFs (FileSystem.walkFat numClusters first)
    modifyFile fun file => { file with currentCluster }
    updateRemainingBytesInCluster

def numClusters : ExFat (FileSession size n) Nat := do
  let s ← get
  pure (FileSystem.divCeil s.file.details.dataLength s.fs.fs.clusterLength % 2 ^ 32)

/-- The loop of `copy_to`. The buffer keeps the bytes of earlier rounds past
what the last read filled. -/
def copySectors : Nat → Nat → Block size → ExFat (FileSession size n) Unit
  | 0, _, _ => Exec.diverge
  | rounds + 1, sectorId, buf => do
    match ← read size with
    | none => pure ()
    | some bytes =>
      let buf := buf.patch 0 bytes
      onFs (FileSystem.onCache .data (SlotCache.write sectorId buf))
      let sectorId ← u32 (sectorId + 1)
      copySectors rounds sectorId buf

def copyTo (fuel : Nat) (toPath : List Char) : ExFat (FileSession size n) Unit := do
  let (dirPath, name) := splitPath toPath
  let numClusters ← numClusters
  let run ← onFs (Allocator.findFreeClusters none numClusters .longestRun)
  if run.clusterCount ≠ numClusters then Exec.raise .diskFull
  let directoryClusterId ← onSession (Session.getOrCreateDirectory fuel dirPath)
  let details := (← get).file.details
  let _ ← onSession (Session.createFileDirEntryAt fuel name directoryClusterId run.firstCluster
    details.attributes Session.allocatedFlags details.validDataLength details.dataLength)
  onSession (Allocator.markAllocated run true)
  let sectorId ← (← get).fs.fs.getHeapSectorId run.firstCluster
  -- every read moves the cursor, which starts at zero
  copySectors (details.dataLength + 1) sectorId fun _ => 0

end File

end ExFatSlim
