import ExFatSlim.File

namespace ExFatSlim.FileSystem

variable {size n : Nat} {α : Type}

/-- The match of `open` on the outcome of the lookup. -/
def openDetails (fuel : Nat) (path : List Char) (options : OpenOptions) :
    ExFat (FileSystem size n) FileDetails := do
  match ← Exec.attempt (findFileInner fuel path (some attrArchive)) with
  | .ok details =>
    if options.createNew then Exec.raise .alreadyExists
    if options.truncate then truncateFile details 0 else pure details
  | .error .fileNotFound =>
    if options.create || options.createNew then createFile fuel path
    else Exec.raise .fileNotFound
  | .error e => Exec.raise e

/-- The cluster that `open` starts at. -/
def openCluster {σ : Type} (details : FileDetails) (chain : StoredChain) (options : OpenOptions) :
    ExFat σ Nat :=
  if options.append then
    match chain with
    | .empty => pure details.firstCluster
    | .contiguous first clusterCount => do
      let endCluster ← u32 (first + clusterCount)
      minus endCluster 1
    | .fat _ last _ => pure last
  else pure details.firstCluster

def «open» (fuel : Nat) (path : List Char) (options : OpenOptions) :
    ExFat (FileSystem size n) File := do
  mount
  let details ← openDetails fuel path options
  let chain ← getStoredChain details
  let clusterId ← openCluster details chain options
  File.new details clusterId (← get).fs.clusterLength options chain

def «exists» (fuel : Nat) (path : List Char) : ExFat (FileSystem size n) Bool := do
  mount
  match ← Exec.attempt (findFileInner fuel path none) with
  | .ok _ => pure true
  | .error .fileNotFound => pure false
  | .error .directoryNotFound => pure false
  | .error e => Exec.raise e

/-- Runs operations of a handle that is dropped afterwards. -/
def withFile (file : File) (m : ExFat (FileSession size n) α) : ExFat (FileSystem size n) α :=
  fun fs => ((m ⟨fs, file⟩).1, (m ⟨fs, file⟩).2.fs)

/-- `FileSystem::read`. -/
def read (fuel : Nat) (path : List Char) : ExFat (FileSystem size n) (List UInt8) := do
  mount
  let file ← «open» fuel path { read := true }
  withFile file do
    let bytes ← File.readToEnd
    File.close
    pure bytes

/-- `FileSystem::read_to_string`. -/
def readToString (fuel : Nat) (path : List Char) : ExFat (FileSystem size n) String := do
  mount
  let file ← «open» fuel path { read := true }
  withFile file do
    let decoded ← File.readToString
    File.close
    pure decoded

def readDir (fuel : Nat) (path : List Char) : ExFat (FileSystem size n) (DirectoryEntryChain size) := do
  mount
  directoryList fuel path

def removeFile (fuel : Nat) (path : List Char) : ExFat (FileSystem size n) Unit := do
  mount
  let details ← findFileInner fuel path (some attrArchive)
  deleteInner fuel details

def removeDir (fuel : Nat) (path : List Char) : ExFat (FileSystem size n) Unit := do
  mount
  let details ← findFileInner fuel path (some attrDirectory)
  deleteInner fuel details

def createDirectory (fuel : Nat) (path : List Char) : ExFat (FileSystem size n) Unit := do
  mount
  withTouched do
    let _ ← Session.getOrCreateDirectory fuel path
    Session.flush

def copy (fuel : Nat) (fromPath toPath : List Char) : ExFat (FileSystem size n) Unit := do
  mount
  if fromPath = toPath then
    Exec.raise (.invalidFileName "cannot copy file to the same exact location")
  let file ← «open» fuel fromPath { read := true }
  withFile file do
    File.copyTo fuel toPath
    File.close

def rename (fuel : Nat) (fromPath toPath : List Char) : ExFat (FileSystem size n) Unit := do
  mount
  let details ← findFileInner fuel fromPath none
  match ← Exec.attempt (findFileInner fuel toPath none) with
  | .ok _ => Exec.raise .alreadyExists
  | .error _ =>
    withTouched do
      let (dirPath, name) := splitPath toPath
      let directoryClusterId ← Session.getOrCreateDirectory fuel dirPath
      let _ ← Session.createFileDirEntryAt fuel name directoryClusterId details.firstCluster
        details.attributes details.flags details.validDataLength details.dataLength
      Session.markDirectoryEntrySetUnused details.location (details.secondaryCount + 1)
      Session.flush

/-- `FileSystem::write`. -/
def write (fuel : Nat) (path : List Char) (contents : List UInt8) : ExFat (FileSystem size n) Unit := do
  mount
  let file ← «open» fuel path { create := true, truncate := true, write := true }
  withFile file do
    File.write contents
    File.close

/-- `FileSystem::flush`: the caches, one after the other. -/
def flush : ExFat (FileSystem size n) Unit := do
  onCache .fat SlotCache.flush
  onCache .bitmap SlotCache.flush
  onCache .data SlotCache.flush

/-- `unmount`: the device, after a flush whose error is only logged. -/
def unmount (fs : FileSystem size n) : BlockDevice size := (flush fs).2.dev

end ExFatSlim.FileSystem
