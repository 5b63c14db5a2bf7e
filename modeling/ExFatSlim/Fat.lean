import ExFatSlim.State

namespace ExFatSlim.Fat

variable {size n : Nat}

def minClusterId : Nat := 2
def clusterLen : Nat := 0xFFFFFFF6
def entrySize : Nat := 4
def endOfChain : Nat := 0xFFFFFFFF

def numEntries (size : Nat) : Nat := size / entrySize

def getSectorId (clusterId : Nat) : ExFat (FileSystem size n) Nat := do
  let fs ← get
  match fs.fat.startOfFatSector with
  | some fatOffset => u32 (fatOffset + clusterId / numEntries size)
  | none => Exec.raise (.unexpected "attemt to access fat when not initialized")

/-- `Fat::set`, which records the sector before it asks the cache for it. -/
def set (clusterId clusterIdTo : Nat) : ExFat (Session size n) Unit := do
  Exec.assert (minClusterId ≤ clusterId)
  let sectorId ← Session.onFs (getSectorId clusterId)
  Session.insert ⟨.fat, sectorId⟩
  let _ ← Session.onCache .fat (SlotCache.readMut sectorId fun b =>
    b.patch (clusterId % numEntries size * entrySize) (leBytes entrySize clusterIdTo))

def nextClusterInFatChain (clusterId : Nat) : ExFat (FileSystem size n) (Option Nat) := do
  Exec.assert (minClusterId ≤ clusterId)
  let sectorId ← getSectorId clusterId
  let b ← FileSystem.onCache .fat (SlotCache.read sectorId)
  let nextClusterId := b.le (clusterId % numEntries size * entrySize) entrySize
  if minClusterId ≤ nextClusterId ∧ nextClusterId ≤ clusterLen then pure (some nextClusterId)
  else pure none

end ExFatSlim.Fat
