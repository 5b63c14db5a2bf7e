import ExFatSlim.SlotCache
import ExFatSlim.Timestamp
import ExFatSlim.UpcaseTable

namespace ExFatSlim

structure FileSystemDetails where
  clusterHeapOffset : Nat
  fatOffset : Nat
  sectorsPerCluster : Nat
  clusterLength : Nat
  clusterCount : Nat
  firstClusterOfRootDir : Nat
  deriving DecidableEq, Repr

def FileSystemDetails.empty : FileSystemDetails where
  clusterHeapOffset := 0
  fatOffset := 0
  sectorsPerCluster := 64
  clusterLength := 32768
  clusterCount := 0
  firstClusterOfRootDir := 0

def FileSystemDetails.getHeapSectorId {σ : Type} (fs : FileSystemDetails) (clusterId : Nat) :
    ExFat σ Nat := do
  if clusterId < 2 then Exec.raise (.invalidClusterId clusterId)
  u32 (fs.clusterHeapOffset + (clusterId - 2) * fs.sectorsPerCluster)

structure Fat (size n : Nat) where
  startOfFatSector : Option Nat
  cache : SlotCache size n

structure AllocationBitmapSlim where
  firstSector : Nat
  numSectors : Nat
  clusterCount : Nat
  deriving DecidableEq, Repr

structure Allocator (size n : Nat) where
  bitmap : AllocationBitmapSlim
  cache : SlotCache size n
  nextSearchCluster : Nat

/-- The mounted volume. `clock` is what the time provider answers, call by
call, and `usizeBits` the pointer width of the target. -/
structure FileSystem (size n : Nat) where
  dev : BlockDevice size
  isMounted : Bool
  fs : FileSystemDetails
  upcaseTable : UpcaseTable
  allocator : Allocator size n
  fat : Fat size n
  dataBlocks : SlotCache size n
  timeProvider : Option (Nat → Timestamp)
  clock : Nat
  usizeBits : Nat

/-- The three caches of a file system. -/
inductive CacheKind where
  | fat
  | bitmap
  | data
  deriving DecidableEq, Repr

inductive TouchedKind where
  | data
  | fat
  | bitmap
  | dir
  | none
  deriving DecidableEq, Repr

def TouchedKind.rank : TouchedKind → Nat
  | .data => 0
  | .bitmap => 1
  | .fat => 2
  | .dir => 3
  | .none => 4

structure TouchedSector where
  kind : TouchedKind
  sector : Nat
  deriving DecidableEq, Repr

def defaultTouchedSectors : Nat := 6

/-- The sectors a handle has to flush, in a vector that holds at most
`defaultTouchedSectors` of them. -/
structure FileDirty where
  sectors : List TouchedSector
  overflowed : Bool
  isDirEntryDirty : Bool
  bounded : sectors.length ≤ defaultTouchedSectors

def FileDirty.new : FileDirty where
  sectors := []
  overflowed := false
  isDirEntryDirty := false
  bounded := Nat.zero_le _

def FileDirty.insert (t : FileDirty) (touched : TouchedSector) : FileDirty :=
  if t.sectors.any (fun x => x.sector = touched.sector) then t
  else if room : t.sectors.length < defaultTouchedSectors then
    { t with
      sectors := t.sectors ++ [touched]
      bounded := by rw [List.length_append]; exact room }
  else { t with overflowed := true }

/-- A file system with the set of touched sectors that an operation records into. -/
structure Session (size n : Nat) where
  fs : FileSystem size n
  touched : FileDirty

namespace FileSystem

variable {size n : Nat} {α : Type}

/-- `FileSystem::new` on a target with pointers of `usizeBits` bits. -/
def new [NeZero n] (io : BlockDevice size) (usizeBits : Nat) : FileSystem size n where
  dev := io
  isMounted := false
  fs := .empty
  upcaseTable := .empty
  allocator := { bitmap := ⟨0, 0, 0⟩, cache := .new, nextSearchCluster := 2 }
  fat := { startOfFatSector := none, cache := .new }
  dataBlocks := .new
  timeProvider := none
  clock := 0
  usizeBits := usizeBits

def cacheOf (fs : FileSystem size n) : CacheKind → SlotCache size n
  | .fat => fs.fat.cache
  | .bitmap => fs.allocator.cache
  | .data => fs.dataBlocks

def putCache (fs : FileSystem size n) (k : CacheKind) (c : SlotCache size n)
    (d : BlockDevice size) : FileSystem size n :=
  match k with
  | .fat => { fs with fat := { fs.fat with cache := c }, dev := d }
  | .bitmap => { fs with allocator := { fs.allocator with cache := c }, dev := d }
  | .data => { fs with dataBlocks := c, dev := d }

/-- Runs an operation of one of the caches on the device. -/
def onCache (k : CacheKind) (m : ExFat (CacheIo size n) α) : ExFat (FileSystem size n) α :=
  Exec.zoom (fun fs => (fs.cacheOf k, fs.dev)) (fun io fs => fs.putCache k io.1 io.2) m

def getCurrentTimestamp : ExFat (FileSystem size n) EncodedTimestamp := do
  let fs ← get
  match fs.timeProvider with
  | some getTimestamp =>
    set { fs with clock := fs.clock + 1 }
    (getTimestamp fs.clock).encode
  | none => pure {}

end FileSystem

namespace Session

variable {size n : Nat} {α : Type}

/-- An operation that records no touched sector. -/
def onFs (m : ExFat (FileSystem size n) α) : ExFat (Session size n) α :=
  Exec.zoom Session.fs (fun fs s => { s with fs }) m

/-- An operation on one of the caches. -/
def onCache (k : CacheKind) (m : ExFat (CacheIo size n) α) : ExFat (Session size n) α :=
  onFs (FileSystem.onCache k m)

def insert (t : TouchedSector) : ExFat (Session size n) Unit :=
  modify fun s => { s with touched := s.touched.insert t }

end Session

/-- Runs an operation with a touched set of its own, as the public functions of
the file system do. -/
def withTouched {size n : Nat} {α : Type} (m : ExFat (Session size n) α) :
    ExFat (FileSystem size n) α := fun fs =>
  ((m ⟨fs, .new⟩).1, (m ⟨fs, .new⟩).2.fs)

end ExFatSlim
