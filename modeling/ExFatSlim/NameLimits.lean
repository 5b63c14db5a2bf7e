import ExFatSlim.Api
import ExFatSlim.SetUpdates

namespace ExFatSlim

open Exec

namespace DirSetWriter

variable {size n : Nat}

/-- Secondary entries, put one after the other. -/
def addAll : List RawDirEntry → DirSetWriter → ExFat (Session size n) DirSetWriter
  | [], w => pure w
  | raw :: raws, w => do
    let w ← w.add raw false
    addAll raws w

/-- A whole set, the checksum of which is filled in at the end. -/
def addSet (place : Location) : List RawDirEntry → ExFat (Session size n) Unit
  | [] => pure ()
  | fileDir :: raws => do
    let w ← (DirSetWriter.new place).add fileDir true
    let w ← w.addAll raws
    w.finish fileDir

theorem addNameEntries_eq (rounds : Nat) : ∀ (units : List Nat) (w : DirSetWriter),
    (Session.addNameEntries rounds units w : ExFat (Session size n) DirSetWriter) =
      w.addAll (nameRaws rounds units) := by
  induction rounds with
  | zero => exact fun units w => rfl
  | succ rounds ih =>
    intro units w
    rw [Session.addNameEntries, nameRaws]
    by_cases none_ : units.isEmpty = true
    · rw [if_pos none_, if_pos none_]
      rfl
    · rw [if_neg none_, if_neg none_, addAll]
      simp only [ih]

end DirSetWriter

/-- The entry set of a name says how many units the name has and how many entries the set. -/
structure SaysLengths (name : List Char) (raws : List RawDirEntry) : Prop where
  some_ : 1 ≤ (encodeUtf16 name).length
  name : (raws[1]?).map (fun stream => (StreamExtensionDirEntry.ofRaw stream).nameLength) =
    some (encodeUtf16 name).length
  set : (raws[0]?).map (fun file => (FileDirEntry.ofRaw file).secondaryCount + 1) = some raws.length

namespace NewEntry

variable {size n : Nat} {e : NewEntry} {fuel d : Nat} {s : Session size n}

/-- What `create_file_dir_entry_at` finds out before it writes: the hash and the number of units
of the name, and a place. -/
def placeFor (e : NewEntry) (fuel d : Nat) : ExFat (Session size n) ((Nat × Nat) × Location) := do
  let named ← encodeUtf16UpcaseAndHash e.name (← get).fs.upcaseTable
  let location ← Session.onFs (FileSystem.findEmptyDirEntrySet fuel d (calcDirEntrySetLen named.2))
  pure (named, location)

/-- The entries that `create_file_dir_entry_at` puts, with the numbers that it narrows to a byte. -/
def written (e : NewEntry) (named : Nat × Nat) (secondaryCount : Nat) (now : EncodedTimestamp) : List RawDirEntry :=
  FileDirEntry.serialize {
    secondaryCount
    setChecksum := 0
    fileAttributes := e.attributes
    createTimestamp := now.packed
    lastModifiedTimestamp := now.packed
    lastAccessedTimestamp := now.packed
    create10msIncrement := now.increment10ms
    lastModified10msIncrement := now.increment10ms
    createUtcOffset := now.utcOffset
    lastModifiedUtcOffset := now.utcOffset
    lastAccessedUtcOffset := now.utcOffset } ::
  StreamExtensionDirEntry.serialize {
    generalSecondaryFlags := e.flags
    nameLength := named.2 % 2 ^ 8
    nameHash := named.1
    validDataLength := e.validDataLength
    firstCluster := e.firstCluster
    dataLength := e.dataLength } :: nameRaws named.2 e.units

theorem create_eq (e : NewEntry) (fuel d : Nat) : (e.create fuel d : ExFat (Session size n) FileDetails) = (do
    let (named, place) ← e.placeFor fuel d
    let secondaryCount ← minus (calcDirEntrySetLen named.2 % 2 ^ 8) 1
    let now ← Session.onFs FileSystem.getCurrentTimestamp
    DirSetWriter.addSet place (e.written named secondaryCount now)
    pure { e.details now place with secondaryCount }) := by
  unfold create Session.createFileDirEntryAt placeFor written
  simp only [bind_assoc, DirSetWriter.addSet, DirSetWriter.addAll, DirSetWriter.addNameEntries_eq]
  rfl

theorem ofRaw_nameLength (e : StreamExtensionDirEntry) :
    (StreamExtensionDirEntry.ofRaw e.serialize).nameLength = e.nameLength % 256 ^ 1 := by
  unfold StreamExtensionDirEntry.ofRaw StreamExtensionDirEntry.serialize
  simp (disch := first | decide | simp) only [Block.le_patch_same, Block.le_patch_apart]

theorem ofRaw_secondaryCount (e : FileDirEntry) :
    (FileDirEntry.ofRaw e.serialize).secondaryCount = e.secondaryCount % 256 ^ 1 := by
  unfold FileDirEntry.ofRaw FileDirEntry.serialize
  simp (disch := first | decide | simp) only [Block.le_patch_same, Block.le_patch_apart]

/-- The set says how long it is exactly when the name has at most 255 units. -/
theorem written_says_iff (named : Nat × Nat) (count : named.2 = e.units.length) (some_ : 0 < named.2)
    (now : EncodedTimestamp) :
    SaysLengths e.name (e.written named (calcDirEntrySetLen named.2 % 2 ^ 8 - 1) now) ↔ e.units.length ≤ 255 := by
  have names : (nameRaws named.2 e.units).length = FileSystem.divCeil e.units.length 15 := length_nameRaws _ count.ge
  have total : (e.written named (calcDirEntrySetLen named.2 % 2 ^ 8 - 1) now).length =
      2 + FileSystem.divCeil e.units.length 15 := by
    rw [written, List.length_cons, List.length_cons, names]
    omega
  constructor
  · intro told
    have name := told.name
    rw [written, List.getElem?_cons_succ, List.getElem?_cons_zero, Option.map_some, ofRaw_nameLength] at name
    have same : named.2 % 2 ^ 8 % 256 ^ 1 = e.units.length := Option.some.inj name
    omega
  · intro short
    refine ⟨count ▸ some_, ?_, ?_⟩
    · rw [written, List.getElem?_cons_succ, List.getElem?_cons_zero, Option.map_some, ofRaw_nameLength]
      refine congrArg some ?_
      change named.2 % 2 ^ 8 % 256 ^ 1 = e.units.length
      omega
    · rw [total, written, List.getElem?_cons_zero, Option.map_some, ofRaw_secondaryCount]
      refine congrArg some ?_
      dsimp only
      rw [calcDirEntrySetLen, count, Nat.mod_eq_of_lt (by omega : e.units.length < 2 ^ 32)]
      have few : FileSystem.divCeil e.units.length 15 ≤ 17 := by
        unfold FileSystem.divCeil
        omega
      omega

theorem placeFor_ok {named : Nat × Nat} {place : Location} {s' : Session size n}
    (run : e.placeFor fuel d s = (.ok (named, place), s')) :
    named.2 = e.units.length ∧ 0 < named.2 := by
  obtain ⟨_, _, _, run⟩ := bind_eq_ok.mp run
  obtain ⟨⟨hash, count⟩, _, accepted, run⟩ := bind_eq_ok.mp run
  obtain ⟨_, _, _, run⟩ := bind_eq_ok.mp run
  cases run
  exact ⟨(encodeUtf16UpcaseAndHash_ok accepted).2.1, (encodeUtf16UpcaseAndHash_ok accepted).2.2.1⟩

end NewEntry

/-- The calls that put the entry set of the last component of a path. -/
inductive CreatingCall where
  | opened (path : List Char) (options : OpenOptions)
  | createDirectory (path : List Char)
  | rename (fromPath toPath : List Char)
  | copy (fromPath toPath : List Char)

namespace CreatingCall

open FileSystem Session

variable {size n : Nat} {fuel : Nat} {fs : FileSystem size n} {s : Session size n} {d : Nat} {e : NewEntry}

def run (fuel : Nat) : CreatingCall → ExFat (FileSystem size n) Unit
  | .opened path options => do
    let _ ← FileSystem.open fuel path options
    pure ()
  | .createDirectory path => FileSystem.createDirectory fuel path
  | .rename fromPath toPath => FileSystem.rename fuel fromPath toPath
  | .copy fromPath toPath => FileSystem.copy fuel fromPath toPath

/-- What `get_or_create_directory` does for a directory that is missing, up to its entry set. -/
def takeCluster : ExFat (Session size n) Nat := do
  let run ← Session.onFs (Allocator.findFreeClusters none 1 .longestRun)
  Allocator.markAllocated run true
  zeroCluster run.firstCluster
  pure run.firstCluster

/-- What `copy_to` does up to the entry set. -/
def takeClusters (fuel : Nat) (dirPath : List Char) : ExFat (FileSession size n) (AllocatedRun × Nat) := do
  let numClusters ← File.numClusters
  let run ← FileSession.onFs (Allocator.findFreeClusters none numClusters .longestRun)
  if run.clusterCount ≠ numClusters then Exec.raise .diskFull
  let d ← FileSession.onSession (getOrCreateDirectory fuel dirPath)
  pure (run, d)

/-- The call comes to put an entry set for the last component of its path, in this state and into this directory. -/
inductive Creates (fuel : Nat) : CreatingCall → FileSystem size n → Session size n → Nat → NewEntry → Prop
  | opened {path : List Char} {options : OpenOptions} {fs fs₁ fs₂ : FileSystem size n}
    {s : Session size n} {d : Nat} :
      mount fs = (.ok (), fs₁) → findFileInner fuel path (some attrArchive) fs₁ =
        (.error (.error .fileNotFound), fs₂) →
      (options.create || options.createNew) = true →
        getOrCreateDirectory fuel (splitPath path).1 ⟨fs₂, .new⟩ = (.ok d, s) →
      Creates fuel (.opened path options) fs s d ⟨(splitPath path).2, noClusterId, attrArchive, allocatedFlags, 0, 0⟩
  | createDirectory {path name : List Char} {parts : List (List Char)} {fs fs₁ : FileSystem size n}
    {s₁ s₂ s : Session size n}
      {d c : Nat} :
      mount fs = (.ok (), fs₁) → pathToIter path = parts ++ [name] →
      getOrCreateIn fuel parts fs₁.fs.firstClusterOfRootDir ⟨fs₁, .new⟩ = (.ok d, s₁) →
      Session.onFs (lookupIn fuel d name (some attrDirectory)) s₁ = (.ok none, s₂) → takeCluster s₂ = (.ok c, s) →
      Creates fuel (.createDirectory path) fs s d ⟨name, c, attrDirectory, allocatedFlags, s.fs.fs.clusterLength,
        s.fs.fs.clusterLength⟩
  | rename {fromPath toPath : List Char} {fs fs₁ fs₂ fs₃ : FileSystem size n} {details : FileDetails}
    {error : ExFatError}
      {s : Session size n} {d : Nat} :
      mount fs = (.ok (), fs₁) → findFileInner fuel fromPath none fs₁ = (.ok details, fs₂) →
      findFileInner fuel toPath none fs₂ = (.error (.error error), fs₃) →
      getOrCreateDirectory fuel (splitPath toPath).1 ⟨fs₃, .new⟩ = (.ok d, s) →
      Creates fuel (.rename fromPath toPath) fs s d
        ⟨(splitPath toPath).2, details.firstCluster, details.attributes, details.flags, details.validDataLength,
          details.dataLength⟩
  | copy {fromPath toPath : List Char} {fs fs₁ fs₂ : FileSystem size n} {file : File} {t : FileSession size n}
      {run : AllocatedRun} {d : Nat} :
      mount fs = (.ok (), fs₁) → fromPath ≠ toPath → FileSystem.open fuel fromPath
        { read := true } fs₁ = (.ok file, fs₂) →
      takeClusters fuel (splitPath toPath).1 ⟨fs₂, file⟩ = (.ok (run, d), t) →
      Creates fuel (.copy fromPath toPath) fs ⟨t.fs, t.file.touched⟩ d
        ⟨(splitPath toPath).2, run.firstCluster, t.file.details.attributes, allocatedFlags,
          t.file.details.validDataLength,
          t.file.details.dataLength⟩

theorem withTouched_error {α : Type} {m : ExFat (Session size n) α} {f : Fault ExFatError}
    (fails : (m ⟨fs, .new⟩).1 = .error f) :
    (withTouched m fs).1 = .error f := fails

theorem getOrCreateIn_append (names names' : List (List Char)) : ∀ c,
    (getOrCreateIn fuel (names ++ names') c : ExFat (Session size n) Nat) = getOrCreateIn fuel names c >>=
      getOrCreateIn fuel names' := by
  induction names with
  | nil => exact fun c => rfl
  | cons name names ih =>
    intro c
    rw [List.cons_append, getOrCreateIn, getOrCreateIn, bind_assoc]
    congr 1
    funext found
    cases found with
    | some details => exact ih details.firstCluster
    | none =>
      simp only [ih, bind_assoc]

theorem copyTo_eq (fuel : Nat) (toPath : List Char) :
    (File.copyTo fuel toPath : ExFat (FileSession size n) Unit) = (do
    let found ← takeClusters fuel (splitPath toPath).1
    let details := (← get).file.details
    let _ ← FileSession.onSession (createFileDirEntryAt fuel (splitPath toPath).2 found.2 found.1.firstCluster
      details.attributes allocatedFlags details.validDataLength details.dataLength)
    FileSession.onSession (Allocator.markAllocated found.1 true)
    let sectorId ← (← get).fs.fs.getHeapSectorId found.1.firstCluster
    File.copySectors (details.dataLength + 1) sectorId fun _ => 0) := by
  unfold File.copyTo takeClusters
  simp only [bind_assoc]
  congr 1
  funext numClusters
  congr 1
  funext run
  split
  · rfl
  · simp only [bind_assoc]
    rfl

/-- An error of the creation is the error of the call. -/
theorem Creates.fails {call : CreatingCall} (creates : Creates fuel call fs s d e) {f : Fault ExFatError}
    {s' : Session size n}
    (error : e.create fuel d s = (.error f, s')) : (call.run fuel fs).1 = .error f := by
  cases creates with
  | @opened path options _ fs₁ fs₂ _ _ mounts missing wanted directory =>
    have created : (createFile fuel path fs₂).1 = .error f := by
      refine withTouched_error ?_
      change ((getOrCreateDirectory fuel (splitPath path).1 >>= fun d =>
        createFileDirEntryAt fuel (splitPath path).2 d noClusterId
        attrArchive allocatedFlags 0 0 >>= fun details => Session.flush >>= fun _ => pure details) _).1 = _
      rw [bind_of_ok directory]
      exact congrArg Prod.fst (bind_of_error error)
    have opens : ∃ t, openDetails fuel path options fs₁ = (.error f, t) := by
      refine ⟨(createFile fuel path fs₂).2, ?_⟩
      rw [openDetails, bind_of_ok (attempt_of_error missing)]
      dsimp only
      rw [if_pos wanted]
      exact Prod.ext created rfl
    obtain ⟨t, opens⟩ := opens
    have whole : FileSystem.open fuel path options fs = (.error f, t) := by
      rw [FileSystem.open, bind_of_ok mounts]
      exact bind_of_error opens
    exact congrArg Prod.fst (bind_of_error whole)
  | @createDirectory path name parts _ fs₁ s₁ s₂ _ _ c mounts names down missing taken =>
    have created : createDirectoryIn fuel name d s₂ = (.error f, s') := by
      have whole :=
        bind_of_ok (f := fun first => get >>= fun s =>
        createFileDirEntryAt fuel name d first attrDirectory allocatedFlags
        s.fs.fs.clusterLength s.fs.fs.clusterLength >>= fun _ => (pure first : ExFat (Session size n) Nat)) taken
      simp only [takeCluster, bind_assoc] at whole
      refine Eq.trans whole ?_
      rw [bind_of_ok (get_apply s)]
      exact bind_of_error error
    have all : getOrCreateDirectory fuel path ⟨fs₁, .new⟩ = (.error f, s') := by
      rw [getOrCreateDirectory, bind_of_ok (get_apply _), names, getOrCreateIn_append, bind_of_ok down, getOrCreateIn,
        bind_of_ok missing]
      exact bind_of_error created
    rw [run, FileSystem.createDirectory, bind_of_ok mounts]
    exact withTouched_error (congrArg Prod.fst (bind_of_error all))
  | @rename fromPath toPath _ fs₁ fs₂ fs₃ details error' _ _ mounts found missing directory =>
    rw [run, FileSystem.rename, bind_of_ok mounts, bind_of_ok found, bind_of_ok (attempt_of_error missing)]
    refine withTouched_error ?_
    change ((getOrCreateDirectory fuel (splitPath toPath).1 >>= fun d =>
      createFileDirEntryAt fuel (splitPath toPath).2 d
      details.firstCluster details.attributes details.flags details.validDataLength details.dataLength >>= fun _ =>
      markDirectoryEntrySetUnused details.location (details.secondaryCount + 1) >>= fun _ => Session.flush) _).1 = _
    rw [bind_of_ok directory]
    exact congrArg Prod.fst (bind_of_error error)
  | @copy fromPath toPath _ fs₁ fs₂ file t run' _ mounts other opens taken =>
    have created : ∃ t', File.copyTo fuel toPath ⟨fs₂, file⟩ = (.error f, t') := by
      have put : FileSession.onSession
        (createFileDirEntryAt fuel (splitPath toPath).2 d run'.firstCluster t.file.details.attributes
          allocatedFlags t.file.details.validDataLength t.file.details.dataLength) t = (.error f, _) :=
            zoom_of_run error
      rw [copyTo_eq, bind_of_ok taken, bind_of_ok (get_apply t)]
      exact ⟨_, bind_of_error put⟩
    obtain ⟨t', created⟩ := created
    have copies : withFile file (File.copyTo fuel toPath >>= fun _ => File.close) fs₂ = (.error f, t'.fs) := by
      rw [withFile, bind_of_error created]
    have whole : FileSystem.copy fuel fromPath toPath fs = (.error f, t'.fs) := by
      rw [FileSystem.copy, bind_of_ok mounts, if_neg other]
      exact (bind_of_ok opens).trans copies
    exact congrArg Prod.fst whole

/-- A call keeps the limits of names: without a place for the set it fails as the search for one
did; else no number is cut off on its way into the set, and the set says its lengths. -/
def KeepsLimits (fuel : Nat) (call : CreatingCall) (fs : FileSystem size n) : Prop :=
  ∀ s d e, Creates fuel call fs s d e →
    (∀ f s', e.placeFor fuel d s = (.error f, s') → (call.run fuel fs).1 = .error f) ∧
    ∀ named place s', e.placeFor fuel d s = (.ok (named, place), s') →
      1 ≤ calcDirEntrySetLen named.2 % 2 ^ 8 ∧
        ∀ now, SaysLengths e.name (e.written named (calcDirEntrySetLen named.2 % 2 ^ 8 - 1) now)

/-- A call keeps the limits exactly when no name of more than 255 units comes as far as a place for its set. -/
theorem keeps_limits_iff (fuel : Nat) (call : CreatingCall) (fs : FileSystem size n) : call.KeepsLimits fuel fs ↔
    ∀ s d e, Creates fuel call fs s d e → ∀ found s', e.placeFor fuel d s = (.ok found, s') →
      e.units.length ≤ 255 := by
  constructor
  · intro keeps s d e creates found s' placed
    obtain ⟨count, some_⟩ := NewEntry.placeFor_ok placed
    exact (NewEntry.written_says_iff found.1 count some_ {}).mp (((keeps s d e creates).2 _ _ s' placed).2 {})
  · intro short s d e creates
    constructor
    · intro f s' missing
      have fails : e.create fuel d s = (.error f, s') := by
        rw [NewEntry.create_eq]
        exact bind_of_error missing
      exact creates.fails fails
    · intro named place s' placed
      obtain ⟨count, some_⟩ := NewEntry.placeFor_ok placed
      have few := short s d e creates _ s' placed
      refine ⟨?_, fun now => (NewEntry.written_says_iff named count some_ now).mpr few⟩
      have total : calcDirEntrySetLen named.2 = 2 + FileSystem.divCeil named.2 15 := by
        rw [calcDirEntrySetLen, Nat.mod_eq_of_lt (by omega)]
      rw [total]
      unfold FileSystem.divCeil
      omega

/-- A volume with an empty root directory of 32 entries. -/
def emptyVolume : FileSystem 512 1 :=
  { File.smallVolume with fs := ⟨100, 20, 2, 1024, 8, 2⟩, upcaseTable := .default }

/-- A name of 256 units. -/
def longName : List Char := List.replicate 16 'a' ++ List.replicate 240 'b'

def longEntry : NewEntry := ⟨longName, noClusterId, attrArchive, allocatedFlags, 0, 0⟩

/-- The state after a lookup of that name. -/
def lookedUp : FileSystem 512 1 := (findFileInner 40 longName (some attrArchive) emptyVolume).2

/-- A path of one component is looked for, and put, in the root directory. -/
theorem creates_in_root {name : List Char} {fs fs₁ fs₂ : FileSystem size n} (mounts : mount fs = (.ok (), fs₁))
    (missing : findFileInner fuel name (some attrArchive) fs₁ = (.error (.error .fileNotFound), fs₂))
    (alone : splitPath name = ([], name)) :
    Creates fuel (.opened name { create := true }) fs ⟨fs₂, .new⟩ fs₂.fs.firstClusterOfRootDir
      ⟨name, noClusterId, attrArchive, allocatedFlags, 0, 0⟩ := by
  have root : getOrCreateDirectory fuel (splitPath name).1 ⟨fs₂, .new⟩ =
      (.ok fs₂.fs.firstClusterOfRootDir, ⟨fs₂, .new⟩) := by
    rw [alone]
    rfl
  have creates : Creates fuel (.opened name { create := true }) fs _ _ _ := .opened mounts missing rfl root
  rw [alone] at creates
  exact creates

theorem long_name_creates : Creates 40 (.opened longName { create := true }) emptyVolume ⟨lookedUp, .new⟩
    lookedUp.fs.firstClusterOfRootDir longEntry := by
  have missing : findFileInner 40 longName (some attrArchive) emptyVolume =
      (.error (.error .fileNotFound), lookedUp) := by
    refine Prod.ext (by decide +kernel) ?_
    rw [lookedUp]
  exact creates_in_root rfl missing (by decide +kernel)

theorem long_name_placed : ∃ hash s', longEntry.placeFor 40 lookedUp.fs.firstClusterOfRootDir ⟨lookedUp, .new⟩ =
    (.ok ((hash, 256), ⟨100, 0⟩), s') := by
  have placed : ((longEntry.placeFor 40 lookedUp.fs.firstClusterOfRootDir ⟨lookedUp, .new⟩).1.map
      fun found => (found.1.2, found.2)) = .ok (256, ⟨100, 0⟩) := by decide +kernel
  rcases outcome : longEntry.placeFor 40 lookedUp.fs.firstClusterOfRootDir ⟨lookedUp, .new⟩ with
    ⟨f | ⟨⟨hash, count⟩, place⟩, s'⟩
  · rw [outcome] at placed
    cases placed
  · rw [outcome] at placed
    cases placed
    exact ⟨hash, s', rfl⟩

/-- The file is created with a name length of zero, and is not found again. -/
theorem long_name_is_lost :
    (∃ file fs', FileSystem.open 40 longName { create := true } emptyVolume = (.ok file, fs') ∧
      (StreamExtensionDirEntry.ofRaw ((fs'.volume File.smallHome).entryAt ⟨100, 1⟩)).nameLength = 0 ∧
      (findFileInner 40 longName none fs').1 = .error (.error .fileNotFound)) ∧
    ¬ (CreatingCall.opened longName { create := true }).KeepsLimits 40 emptyVolume := by
  constructor
  · have opened : ((FileSystem.open 40 longName { create := true } emptyVolume).1.map fun file =>
      file.details.location) =
        .ok ⟨100, 0⟩ := by decide +kernel
    rcases run : FileSystem.open 40 longName { create := true } emptyVolume with ⟨f | file, fs'⟩
    · rw [run] at opened
      cases opened
    · have after : fs' = (FileSystem.open 40 longName { create := true } emptyVolume).2 :=
        (congrArg Prod.snd run).symm
      refine ⟨file, fs', rfl, ?_, ?_⟩
      · rw [after]
        decide +kernel
      · rw [after]
        decide +kernel
  · intro keeps
    obtain ⟨hash, s', placed⟩ := long_name_placed
    have told := ((keeps _ _ _ long_name_creates).2 _ _ _ placed).2 {}
    have count : longEntry.units.length = 256 := by decide +kernel
    have short := (NewEntry.written_says_iff (hash, 256) count.symm (Nat.succ_pos 255) {}).mp told
    omega

end CreatingCall

end ExFatSlim
