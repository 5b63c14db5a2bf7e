import ExFatSlim.Api

namespace ExFatSlim

/-- What `BlockDeviceError` tells about an error of the device. -/
structure DeviceError where
  toErrorCode : UInt8
  noCard : Bool
  deriving DecidableEq, Repr

/-- `fs::Error`. The variants that `From<ExFatError<E>>` carries over as they
are stand under `exFat`. -/
inductive FsError where
  | io (errorCode : UInt8)
  | noCard
  | exFat (e : ExFatError)
  | exhaustedFileHandles
  | invalidFileHandle
  | unexpectedResponse
  deriving DecidableEq, Repr

/-- `From<ExFatError<E>>`, where the device's error is `cause`. -/
def FsError.ofExFat (cause : DeviceError) : ExFatError → FsError
  | .io => if cause.noCard then .noCard else .io cause.toErrorCode
  | e => .exFat e

/-- An item of a handle table, with the number of the request that stored it.
No operation reads that number. -/
structure Stored (T : Type) where
  item : T
  issue : Nat

structure Handles (T : Type) where
  handles : Std.TreeMap UInt32 (Stored T)
  nextHandle : UInt32

namespace Handles

variable {T : Type}

def new : Handles T := ⟨∅, 0⟩

/-- The counter goes on: there might be old handles still out there. -/
def clear (t : Handles T) : Handles T := { t with handles := ∅ }

/-- The loop of `add`, with the number of rounds left. -/
def addIn (stored : Stored T) : Nat → Handles T → Except FsError UInt32 × Handles T
  | 0, t => (.error .exhaustedFileHandles, t)
  | rounds + 1, t =>
    let handle := t.nextHandle + 1
    let t := { t with nextHandle := handle }
    if handle ∈ t.handles then addIn stored rounds t
    else (.ok handle, { t with handles := t.handles.insert handle stored })

def add (t : Handles T) (stored : Stored T) : Except FsError UInt32 × Handles T :=
  addIn stored (2 ^ 32 - 1) t

def get (t : Handles T) (handle : UInt32) : Option (Stored T) := t.handles[handle]?

/-- The item under a handle after a change in place. -/
def put (t : Handles T) (handle : UInt32) (stored : Stored T) : Handles T :=
  { t with handles := t.handles.insert handle stored }

def remove (t : Handles T) (handle : UInt32) : Handles T :=
  { t with handles := t.handles.erase handle }

/-- What `take_any` hands out until the table is empty, in the order of the handles. -/
def takeAll (t : Handles T) : List T := t.handles.toList.map fun entry => entry.2.item

end Handles

/-- `Op`. -/
inductive FsOp where
  | readToString (path : List Char)
  | read (path : List Char)
  | openFile (path : List Char) (options : OpenOptions)
  | readFile (handle : UInt32) (len : Nat)
  | readFileToEnd (handle : UInt32)
  | readFileToString (handle : UInt32)
  | writeFile (handle : UInt32) (buffer : List UInt8)
  | seekFile (handle : UInt32) (position : Nat)
  | closeFile (handle : UInt32)
  | flushFile (handle : UInt32)
  | metadata (handle : UInt32)
  | openDirectory (path : List Char)
  | directoryNextEntry (handle : UInt32)
  | «exists» (path : List Char)
  | removeFile (path : List Char)
  | createDirectory (path : List Char)
  | copy (fromPath toPath : List Char)
  | rename (fromPath toPath : List Char)
  | removeDir (path : List Char)
  | write (path : List Char) (buffer : List UInt8)
  | closeDirectory (handle : UInt32)
  | shutdown

/-- The file handle that a request carries. -/
def FsOp.fileHandle : FsOp → Option UInt32
  | .readFile handle _ | .readFileToEnd handle | .readFileToString handle | .writeFile handle _
  | .seekFile handle _ | .closeFile handle | .flushFile handle | .metadata handle => some handle
  | _ => none

/-- The directory handle that a request carries. -/
def FsOp.directoryHandle : FsOp → Option UInt32
  | .directoryNextEntry handle | .closeDirectory handle => some handle
  | _ => none

/-- `Resp`. -/
inductive FsResp where
  | ok
  | readToString (data : String)
  | read (data : List UInt8)
  | fileOpen (handle : UInt32)
  | directoryOpen (handle : UInt32)
  | metadata (data : FileDetails)
  | directoryEntry (data : Option (FileDetails × String))
  | «exists» (found : Bool)

/-- What `FsManager::mount` gives access to, with the number of the request at work. -/
structure Mounted (size n : Nat) where
  fileSystem : FileSystem size n
  files : Handles File
  directories : Handles (DirectoryEntryChain size)
  served : Nat

/-- `DirectoryIterator::next_entry` with a buffer for a whole name. -/
def DirectoryEntryChain.nextEntry {size n : Nat} (fuel : Nat) :
    ExFat (Scan size n) (Option (FileDetails × String)) := do
  match ← nextFileEntry allPassFilter (some maxNameLen) fuel with
  | some (details, bytes) => pure (some (details, ← File.fromUtf8 bytes))
  | none => pure none

namespace Mounted

variable {size n : Nat} {α : Type}

/-- The outcome of a call, its error converted by `?`. -/
def convert (cause : DeviceError) : Except (Fault ExFatError) α → Except (Fault FsError) α
  | .ok a => .ok a
  | .error (.error e) => .error (.error (.ofExFat cause e))
  | .error .panic => .error .panic
  | .error .diverge => .error .diverge

def onFs (cause : DeviceError) (m : ExFat (FileSystem size n) α) : Exec FsError (Mounted size n) α :=
  fun s => (convert cause (m s.fileSystem).1, { s with fileSystem := (m s.fileSystem).2 })

/-- `files.get(handle)?` and a call on what it returns. -/
def onFile (cause : DeviceError) (handle : UInt32) (m : ExFat (FileSession size n) α) :
    Exec FsError (Mounted size n) α := fun s =>
  match s.files.get handle with
  | some stored =>
    let called := m ⟨s.fileSystem, stored.item⟩
    (convert cause called.1, { s with
      fileSystem := called.2.fs
      files := s.files.put handle { stored with item := called.2.file } })
  | none => (.error (.error .invalidFileHandle), s)

/-- `dirs.get(handle)?` and a call on what it returns. -/
def onDirectory (cause : DeviceError) (handle : UInt32) (m : ExFat (Scan size n) α) :
    Exec FsError (Mounted size n) α := fun s =>
  match s.directories.get handle with
  | some stored =>
    let called := m ⟨s.fileSystem, stored.item⟩
    (convert cause called.1, { s with
      fileSystem := called.2.fs
      directories := s.directories.put handle { stored with item := called.2.chain } })
  | none => (.error (.error .invalidFileHandle), s)

/-- `files.remove(handle)?` and `close` of what it returns. -/
def closeFile (cause : DeviceError) (handle : UInt32) : Exec FsError (Mounted size n) Unit := fun s =>
  match s.files.get handle with
  | some stored =>
    let closed := (File.close : ExFat (FileSession size n) Unit) ⟨s.fileSystem, stored.item⟩
    (convert cause closed.1, { s with fileSystem := closed.2.fs, files := s.files.remove handle })
  | none => (.error (.error .invalidFileHandle), s)

def closeDirectory (handle : UInt32) : Exec FsError (Mounted size n) Unit := fun s =>
  match s.directories.get handle with
  | some _ => (.ok (), { s with directories := s.directories.remove handle })
  | none => (.error (.error .invalidFileHandle), s)

/-- `files.add(file)?`. -/
def addFile (file : File) : Exec FsError (Mounted size n) UInt32 := fun s =>
  let (added, files) := s.files.add ⟨file, s.served⟩
  (added.mapError .error, { s with files })

/-- `dirs.add(dir)?`. -/
def addDirectory (chain : DirectoryEntryChain size) : Exec FsError (Mounted size n) UInt32 := fun s =>
  let (added, directories) := s.directories.add ⟨chain, s.served⟩
  (added.mapError .error, { s with directories })

/-- The match of `handle_req`. -/
def serve (fuel : Nat) (cause : DeviceError) : FsOp → Exec FsError (Mounted size n) FsResp
  | .readToString path => do return .readToString (← onFs cause (FileSystem.readToString fuel path))
  | .read path => do return .read (← onFs cause (FileSystem.read fuel path))
  | .openFile path options => do
    let file ← onFs cause (FileSystem.open fuel path options)
    return .fileOpen (← addFile file)
  | .readFileToString handle => do return .readToString (← onFile cause handle File.readToString)
  | .readFileToEnd handle => do return .read (← onFile cause handle File.readToEnd)
  | .seekFile handle position => do
    onFile cause handle (File.seek position)
    return .ok
  | .readFile handle len => do
    -- the buffer is returned whole, however much of it was filled
    let filled ← onFile cause handle (File.read len)
    let bytes := filled.getD []
    return .read (bytes ++ List.replicate (len - bytes.length) 0)
  | .writeFile handle buffer => do
    onFile cause handle (File.write buffer)
    return .ok
  | .closeFile handle => do
    closeFile cause handle
    return .ok
  | .flushFile handle => do
    onFile cause handle File.flush
    return .ok
  | .metadata handle => do
    let s ← onFile cause handle get
    return .metadata s.file.details
  | .openDirectory path => do
    let dir ← onFs cause (FileSystem.readDir fuel path)
    return .directoryOpen (← addDirectory dir)
  | .directoryNextEntry handle => do
    return .directoryEntry (← onDirectory cause handle (DirectoryEntryChain.nextEntry fuel))
  | .exists path => do return .exists (← onFs cause (FileSystem.exists fuel path))
  | .removeFile path => do
    onFs cause (FileSystem.removeFile fuel path)
    return .ok
  | .createDirectory path => do
    onFs cause (FileSystem.createDirectory fuel path)
    return .ok
  | .copy fromPath toPath => do
    onFs cause (FileSystem.copy fuel fromPath toPath)
    return .ok
  | .rename fromPath toPath => do
    onFs cause (FileSystem.rename fuel fromPath toPath)
    return .ok
  | .removeDir path => do
    onFs cause (FileSystem.removeDir fuel path)
    return .ok
  | .write path buffer => do
    onFs cause (FileSystem.write fuel path buffer)
    return .ok
  | .closeDirectory handle => do
    closeDirectory handle
    return .ok
  | .shutdown => pure .ok

end Mounted

/-- `clock` is what the time provider has been asked so far, and `served` the
number of requests. -/
structure FsManager (size n : Nat) where
  dev : Option (BlockDevice size)
  fileSystem : Option (FileSystem size n)
  files : Handles File
  directories : Handles (DirectoryEntryChain size)
  timeProvider : Option (Nat → Timestamp)
  clock : Nat
  usizeBits : Nat
  served : Nat

namespace FsManager

variable {size n : Nat} {α : Type}

def new (dev : BlockDevice size) (timeProvider : Option (Nat → Timestamp)) (usizeBits : Nat) :
    FsManager size n where
  dev := some dev
  fileSystem := none
  files := .new
  directories := .new
  timeProvider := timeProvider
  clock := 0
  usizeBits := usizeBits
  served := 0

def mount [NeZero n] (cause : DeviceError) : Exec FsError (FsManager size n) Unit := fun m =>
  match m.dev with
  | some dev =>
    let fresh : FileSystem size n :=
      { FileSystem.new dev m.usizeBits with timeProvider := m.timeProvider, clock := m.clock }
    let mounted := FileSystem.mount fresh
    match mounted.1 with
    | .ok () =>
      (.ok (), { m with
        dev := none
        fileSystem := some mounted.2
        files := m.files.clear
        directories := m.directories.clear })
    | .error (.error e) => (.error (.error (.ofExFat cause e)), { m with dev := some mounted.2.unmount })
    | .error .panic => (.error .panic, { m with dev := none })
    | .error .diverge => (.error .diverge, { m with dev := none })
  | none =>
    match m.fileSystem with
    | some _ => (.ok (), m)
    | none => (.error .panic, m)

def unmount (m : FsManager size n) : FsManager size n :=
  match m.fileSystem with
  | some fs => { m with
    dev := some fs.unmount
    fileSystem := none
    clock := fs.clock
    files := m.files.clear
    directories := m.directories.clear }
  | none => { m with files := m.files.clear, directories := m.directories.clear }

/-- The loop of `shutdown` over the open files, with the first error so far. -/
def closeAll : List File → Except ExFatError Unit → FileSystem size n →
    Except (Fault ExFatError) Unit × FileSystem size n
  | [], firstError, fs => (firstError.mapError .error, fs)
  | file :: rest, firstError, fs =>
    let closed := (File.close : ExFat (FileSession size n) Unit) ⟨fs, file⟩
    match closed.1 with
    | .ok () => closeAll rest firstError closed.2.fs
    | .error (.error e) => closeAll rest (firstError.bind fun _ => .error e) closed.2.fs
    | .error .panic => (.error .panic, closed.2.fs)
    | .error .diverge => (.error .diverge, closed.2.fs)

def shutdown (cause : DeviceError) : Exec FsError (FsManager size n) Unit := fun m =>
  match m.fileSystem with
  | some fs =>
    let closed := closeAll m.files.takeAll (.ok ()) fs
    (Mounted.convert cause closed.1, unmount { m with
      fileSystem := some closed.2
      files := m.files.clear
      directories := m.directories.clear })
  | none => (.ok (), m.unmount)

/-- Runs a request on what `mount` gives access to. -/
def onMounted (served : Exec FsError (Mounted size n) α) : Exec FsError (FsManager size n) α := fun m =>
  match m.fileSystem with
  | some fs =>
    let done := served ⟨fs, m.files, m.directories, m.served⟩
    (done.1, { m with
      fileSystem := some done.2.fileSystem
      files := done.2.files
      directories := done.2.directories })
  | none => (.error .panic, m)

def handleReq [NeZero n] (fuel : Nat) (cause : DeviceError) : FsOp → Exec FsError (FsManager size n) FsResp
  | .shutdown => do
    shutdown cause
    return .ok
  | op => do
    mount cause
    onMounted (Mounted.serve fuel cause op)

/-- Another card, or the same card changed elsewhere: what the device holds
and how it will fail from now on. -/
def insertCard (m : FsManager size n) (dev : BlockDevice size) : FsManager size n where
  dev := m.dev.map fun _ => dev
  fileSystem := m.fileSystem.map fun fs => { fs with dev }
  files := m.files
  directories := m.directories
  timeProvider := m.timeProvider
  clock := m.clock
  usizeBits := m.usizeBits
  served := m.served

end FsManager

/-- What happens to the actor: a request, with what `no_card` and
`to_error_code` say of the device's error if it ends in one, or a change of
the card between two requests. -/
inductive FsEvent (size : Nat) where
  | request (op : FsOp) (cause : DeviceError)
  | card (dev : BlockDevice size)

/-- The reply to a request; a change of the card has none. -/
abbrev FsAnswer := Option (Except FsError FsResp)

namespace FsManager

variable {size n : Nat} [NeZero n]

/-- One round of `fs_actor_task`, unless it panics or never ends. -/
def round (fuel : Nat) (m : FsManager size n) : FsEvent size → Option (FsAnswer × FsManager size n)
  | .card dev => some (none, m.insertCard dev)
  | .request op cause =>
    let handled := handleReq fuel cause op m
    match handled.1 with
    | .ok resp => some (some (.ok resp), handled.2)
    | .error (.error .noCard) => some (some (.error .noCard), handled.2.unmount)
    | .error (.error e) => some (some (.error e), handled.2)
    | .error _ => none

/-- The rounds of `fs_actor_task`, with the answers in the order of the events. -/
def actor (fuel : Nat) : List (FsEvent size) → FsManager size n → Option (List FsAnswer × FsManager size n)
  | [], m => some ([], m)
  | event :: rest, m => do
    let (answer, m) ← m.round fuel event
    let (answers, m) ← actor fuel rest { m with served := m.served + 1 }
    return (answer :: answers, m)

end FsManager

end ExFatSlim
