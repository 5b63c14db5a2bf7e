import ExFatSlim.Fat

namespace ExFatSlim

def firstClusterId : Nat := 2

def noClusterId : Nat := 0

structure BitmapPos where
  /-- 0 based sector number within the bitmap -/
  sector : Nat
  /-- bit index within the sector -/
  bit : Nat
  deriving DecidableEq, Repr

namespace BitmapPos

def clustersPerSector (size : Nat) : Nat := size * 8

/-- `BitmapPos::of`, for cluster ids that its callers checked to be 2 or more. -/
def of (size clusterId : Nat) : BitmapPos where
  sector := (clusterId - firstClusterId) / clustersPerSector size
  bit := (clusterId - firstClusterId) % clustersPerSector size

def cluster (size : Nat) (pos : BitmapPos) : Nat :=
  pos.sector * clustersPerSector size + pos.bit + firstClusterId

def firstClusterOf (size sector : Nat) : Nat := cluster size ⟨sector, 0⟩

end BitmapPos

structure BitmapChunk where
  /-- 0 based sector number within the bitmap -/
  sector : Nat
  /-- the first bit to set or clear, and how many -/
  start : Nat
  taken : Nat
  deriving DecidableEq, Repr

/-- The chunks of a run of clusters, one bitmap sector after the other. A
chunk takes at least one cluster, so `remaining` rounds are enough. -/
def bitmapRunChunksIn (size : Nat) : Nat → Nat → Nat → List BitmapChunk
  | 0, _, _ => []
  | rounds + 1, clusterId, remaining =>
    if remaining = 0 then []
    else
      let pos := BitmapPos.of size clusterId
      let taken := min (BitmapPos.clustersPerSector size - pos.bit) remaining
      ⟨pos.sector, pos.bit, taken⟩ ::
        bitmapRunChunksIn size rounds (clusterId + taken) (remaining - taken)

def bitmapRunChunks (size firstCluster clusterCount : Nat) : List BitmapChunk :=
  bitmapRunChunksIn size clusterCount firstCluster clusterCount

inductive SearchPolicy where
  | firstRun
  | longestRun
  deriving DecidableEq, Repr

structure AllocatedRun where
  firstCluster : Nat
  clusterCount : Nat
  deriving DecidableEq, Repr

inductive StoredChain where
  | empty
  | contiguous (first clusterCount : Nat)
  | fat (first last clusterCount : Nat)
  deriving DecidableEq, Repr

def isFree (byte : UInt8) (bitInByte : Nat) : Bool := byte &&& (1 <<< UInt8.ofNat bitInByte) == 0

/-- One bit of `set_bit_range`. -/
def setBit (byte : UInt8) (bit : Nat) (set : Bool) : UInt8 :=
  if set then byte ||| (1 <<< UInt8.ofNat bit) else byte &&& ~~~(1 <<< UInt8.ofNat bit)

/-- `set_bit_range` for the bits `start .. start + taken`. -/
def setBitRange {size : Nat} (b : Block size) (start taken : Nat) (set : Bool) : Block size :=
  (List.range' start taken).foldl
    (fun b bit => b.patch (bit / 8) [setBit (b.byte (bit / 8)) (bit % 8) set]) b

/-- The variables of `find_free_clusters_from` that change while it scans. -/
structure ScanState where
  clusterId : Nat
  firstCluster : Option Nat
  count : Nat
  longest : Option AllocatedRun
  deriving DecidableEq, Repr

/-- How a piece of the scan ends: it goes on, `break 'scan`, a run to return,
or a cluster id past `u32`. -/
inductive ScanFlow where
  | next (s : ScanState)
  | leave (s : ScanState)
  | found (run : AllocatedRun)
  | overflow
  deriving DecidableEq, Repr

def ScanFlow.andThen (flow : ScanFlow) (f : ScanState → ScanFlow) : ScanFlow :=
  match flow with
  | .next s => f s
  | other => other

def ScanState.advance (s : ScanState) (k : Nat) : ScanFlow :=
  if s.clusterId + k < 2 ^ 32 then .next { s with clusterId := s.clusterId + k } else .overflow

/-- `close_run`: the run to return at once, and the state without the run in progress. -/
def closeRun (policy : SearchPolicy) (s : ScanState) : Option AllocatedRun × ScanState :=
  let run := s.firstCluster.map fun first => AllocatedRun.mk first s.count
  let closed := { s with firstCluster := none, count := 0 }
  match policy, run with
  | .firstRun, run => (run, closed)
  | .longestRun, some run =>
    match s.longest with
    | some best =>
      if best.clusterCount < run.clusterCount then (none, { closed with longest := some run })
      else (none, closed)
    | none => (none, { closed with longest := some run })
  | .longestRun, none => (none, closed)

section Scan

variable (policy : SearchPolicy) (fromCluster endCluster numClusters : Nat)

/-- The body of the innermost loop, for one bit that is free or not. -/
def scanBit (free : Bool) (s : ScanState) : ScanFlow :=
  if s.clusterId < fromCluster then s.advance 1
  else if endCluster ≤ s.clusterId then .leave s
  else if free then
    let first := s.firstCluster.getD s.clusterId
    if s.count + 1 = numClusters then .found ⟨first, s.count + 1⟩
    else { s with firstCluster := some first, count := s.count + 1 : ScanState }.advance 1
  else match closeRun policy s with
    | (some run, _) => .found run
    | (none, s) => s.advance 1

def scanBits : List Bool → ScanState → ScanFlow
  | [], s => .next s
  | free :: rest, s =>
    (scanBit policy fromCluster endCluster numClusters free s).andThen (scanBits rest)

def freeBits (bytes : List UInt8) : List Bool :=
  bytes.flatMap fun byte => (List.range 8).map (isFree byte)

/-- One chunk of four bytes. A chunk without a free bit is skipped as a whole. -/
def scanChunk (chunk : List UInt8) (s : ScanState) : ScanFlow :=
  if chunk.all (· == 0xFF) then
    match closeRun policy s with
    | (some run, _) => .found run
    | (none, s) => s.advance 32
  else scanBits policy fromCluster endCluster numClusters (freeBits chunk) s

def scanChunks : List (List UInt8) → ScanState → ScanFlow
  | [], s => .next s
  | chunk :: rest, s =>
    (scanChunk policy fromCluster endCluster numClusters chunk s).andThen (scanChunks rest)

/-- The chunks of a bitmap sector, `as_chunks::<4>()`. -/
def chunksOf {size : Nat} (b : Block size) : List (List UInt8) :=
  (List.range (size / 4)).map fun k => b.slice (k * 4) 4

end Scan

namespace Allocator

variable {size n : Nat}

/-- The loop over the bitmap sectors `sector ..`, `rounds` of them. -/
def scanSectors (policy : SearchPolicy) (fromCluster endCluster numClusters : Nat) :
    Nat → Nat → ScanState → ExFat (FileSystem size n) ScanFlow
  | 0, _, s => pure (.next s)
  | rounds + 1, sector, s => do
    let fs ← get
    let sectorId ← u32 (fs.allocator.bitmap.firstSector + sector)
    let b ← FileSystem.onCache .bitmap (SlotCache.read sectorId)
    match scanChunks policy fromCluster endCluster numClusters (chunksOf b) s with
    | .next s => scanSectors policy fromCluster endCluster numClusters rounds (sector + 1) s
    | other => pure other

def findFreeClustersFrom (fromCluster numClusters : Nat) (policy : SearchPolicy) :
    ExFat (FileSystem size n) AllocatedRun := do
  if fromCluster < firstClusterId then Exec.raise (.invalidClusterId fromCluster)
  let bitmap := (← get).allocator.bitmap
  let endCluster ← u32 (firstClusterId + bitmap.clusterCount)
  let start := BitmapPos.of size fromCluster
  if endCluster ≤ fromCluster ∨ bitmap.numSectors ≤ start.sector then
    -- nothing free after fromCluster, the caller decides whether to wrap
    Exec.raise .diskFull
  let s : ScanState := ⟨BitmapPos.firstClusterOf size start.sector, none, 0, none⟩
  match ← scanSectors policy fromCluster endCluster numClusters
      (bitmap.numSectors - start.sector) start.sector s with
  | .overflow => Exec.panic
  | .found run => pure run
  | .next s | .leave s =>
    match closeRun policy s with
    | (some run, _) => pure run
    | (none, s) =>
      match s.longest with
      | some run => pure run
      | none => Exec.raise .diskFull

/-- Runs `m`, and `other` instead if it ends in `DiskFull`. -/
def onDiskFull {α : Type} (m other : ExFat (FileSystem size n) α) : ExFat (FileSystem size n) α :=
  fun fs => match m fs with
    | (.error (.error .diskFull), fs) => other fs
    | result => result

/-- The search of `find_free_clusters`, which wraps to the start of the heap once. -/
def findWrapping (fromCluster numClusters : Nat) (policy : SearchPolicy) :
    ExFat (FileSystem size n) AllocatedRun :=
  if firstClusterId < fromCluster then
    onDiskFull (findFreeClustersFrom fromCluster numClusters policy)
      (findFreeClustersFrom firstClusterId numClusters policy)
  else findFreeClustersFrom fromCluster numClusters policy

def findFreeClusters (fromCluster : Option Nat) (numClusters : Nat) (policy : SearchPolicy) :
    ExFat (FileSystem size n) AllocatedRun := do
  let fromCluster := fromCluster.getD (← get).allocator.nextSearchCluster
  let run ← findWrapping fromCluster numClusters policy
  let nextSearchCluster ← u32 (run.firstCluster + run.clusterCount)
  modify fun fs => { fs with allocator := { fs.allocator with nextSearchCluster } }
  pure run

def markChunks (allocated : Bool) : List BitmapChunk → ExFat (Session size n) Unit
  | [] => pure ()
  | chunk :: rest => do
    let sectorId ← u32 ((← get).fs.allocator.bitmap.firstSector + chunk.sector)
    let _ ← Session.onCache .bitmap (SlotCache.readMut sectorId fun b =>
      setBitRange b chunk.start chunk.taken allocated)
    Session.insert ⟨.bitmap, sectorId⟩
    markChunks allocated rest

def markAllocated (run : AllocatedRun) (allocated : Bool) : ExFat (Session size n) Unit := do
  if run.clusterCount = 0 then return ()
  if run.firstCluster < firstClusterId then Exec.raise (.invalidClusterId run.firstCluster)
  -- the whole run has to fit into the allocation bitmap
  let lastCluster := run.firstCluster + (run.clusterCount - 1)
  if 2 ^ 32 ≤ lastCluster then Exec.raise (.invalidClusterId run.firstCluster)
  let bitmap := (← get).fs.allocator.bitmap
  let endCluster ← u32 (firstClusterId + bitmap.clusterCount)
  if endCluster ≤ lastCluster ∨ bitmap.numSectors ≤ (BitmapPos.of size lastCluster).sector then
    Exec.raise (.invalidClusterId run.firstCluster)
  markChunks allocated (bitmapRunChunks size run.firstCluster run.clusterCount)

def allocate (chain : StoredChain) (count : Nat) : ExFat (Session size n) AllocatedRun := do
  let run ← match chain with
    | .empty => Session.onFs (findFreeClusters none count .longestRun)
    | .contiguous first clusterCount => do
      let hint ← u32 (first + clusterCount)
      Session.onFs (findFreeClusters (some hint) count .firstRun)
    | .fat _ last _ => do
      let hint ← u32 (last + 1)
      Session.onFs (findFreeClusters (some hint) count .firstRun)
  markAllocated run true
  pure run

/-- The loop of `free` over a FAT chain, at most `clusterCount` rounds. -/
def freeChain : Nat → Nat → ExFat (Session size n) Unit
  | 0, _ => pure ()
  | rounds + 1, clusterId => do
    let nextClusterId ← Session.onFs (Fat.nextClusterInFatChain clusterId)
    markAllocated ⟨clusterId, 1⟩ false
    Fat.set clusterId noClusterId
    match nextClusterId with
    | some next => freeChain rounds next
    | none => pure ()

def free : StoredChain → ExFat (Session size n) Unit
  | .empty => pure ()
  | .contiguous first clusterCount => markAllocated ⟨first, clusterCount⟩ false
  | .fat first _ clusterCount => freeChain clusterCount first

end Allocator

end ExFatSlim
