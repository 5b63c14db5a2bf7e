import ExFatSlim.CopySectors
import ExFatSlim.Creating
import ExFatSlim.LongestRuns
import ExFatSlim.SetUpdates

namespace ExFatSlim

open DirectoryEntryChain (dirEntriesPerBlock)

namespace Volume

variable {size : Nat} {home : Nat → CacheKind} {v v' v'' : Volume size} {run : AllocatedRun} {c : Nat} {cs : List Nat}

/-- A volume with the clusters of a run taken, and other directory entries and file contents, read at another time. -/
structure Taken (home : Nat → CacheKind) (run : AllocatedRun) (v v' : Volume size) : Prop where
  setup : v'.setup = { v.setup with clock := v'.setup.clock, nextSearchCluster := v'.setup.nextSearchCluster }
  isFree : ∀ c, v.InHeap c → (v'.IsFree c ↔ v.IsFree c ∧ ¬ run.Has c)
  fatEntry : ∀ c, v.InHeap c → v'.fatEntry c = v.fatEntry c

section Taken

variable (taken : Taken home run v v')

include taken

theorem Taken.inHeap : v'.InHeap c ↔ v.InHeap c := by rw [InHeap, InHeap, endCluster, endCluster, taken.setup]

theorem Taken.details : v'.setup.details = v.setup.details := by rw [taken.setup]

theorem Taken.isData : v'.IsData home c ↔ v.IsData home c := by simp only [IsData, dataSector, taken.details]

theorem Taken.layout (layout : Layout size home v.setup) : Layout size home v'.setup := by
  rw [taken.setup]
  exact layout.of_same rfl rfl rfl rfl

theorem Taken.used (inHeap : v.InHeap c) (used : ¬ v.IsFree c) : ¬ v'.IsFree c :=
  fun free => used ((taken.isFree c inHeap).mp free).1

theorem Taken.threads (inHeap : ∀ c ∈ cs, v.InHeap c) (threads : v.Threads cs) : v'.Threads cs := by
  have same : ∀ c ∈ cs, v'.next c = v.next c := fun c member => next_of_fatEntry (taken.fatEntry c (inHeap c member))
  refine ⟨threads.linked.of_same fun c member => same c (List.dropLast_subset _ member), fun c atEnd => ?_⟩
  rw [same c (List.mem_of_getLast? atEnd)]
  exact threads.ended c atEnd

theorem Taken.owns {noFatChain : Bool} {chain : StoredChain} (owns : v.Owns home noFatChain chain cs) :
    v'.Owns home noFatChain chain cs where
  lists := owns.lists
  threads flag := taken.threads owns.inHeap (owns.threads flag)
  stored := owns.stored
  distinct := owns.distinct
  inHeap c member := taken.inHeap.mpr (owns.inHeap c member)
  used c member := taken.used (owns.inHeap c member) (owns.used c member)
  data c member := taken.isData.mpr (owns.data c member)

theorem Taken.directory {first : Nat} (dir : v.Directory home first cs) : v'.Directory home first cs where
  head := dir.head
  threads := taken.threads dir.inHeap dir.threads
  distinct := dir.distinct
  inHeap c member := taken.inHeap.mpr (dir.inHeap c member)
  used c member := taken.used (dir.inHeap c member) (dir.used c member)
  data c member := taken.isData.mpr (dir.data c member)

/-- Files that are written later make no difference. -/
theorem Taken.rewritten (layout : Layout size home v.setup) (rewritten : Rewritten home v' v'') :
    Taken home run v v'' where
  setup := by
    rw [rewritten.setup]
    exact taken.setup
  isFree c inHeap := by
    rw [rewritten.isFree (taken.layout layout).toBitmapLayout (taken.inHeap.mpr inHeap)]
    exact taken.isFree c inHeap
  fatEntry c inHeap := by
    rw [rewritten.fatEntry (taken.layout layout) (taken.inHeap.mpr inHeap)]
    exact taken.fatEntry c inHeap

end Taken

/-- Taking the run that a search has found, after directory entries were written. -/
theorem taken_of_mark (layout : Layout size home v.setup) {start : Nat} (edited : Edited home (v.searchAt start) v')
    (low : 2 ≤ run.firstCluster) (high : run.firstCluster + run.clusterCount ≤ v.endCluster) :
    Taken home run v (v'.mark run true) := by
  have layout₁ : Layout size home (v.searchAt start).setup := layout.of_same rfl rfl rfl rfl
  have layout' := edited.layout layout₁
  have inHeap' : ∀ c, v.InHeap c → v'.InHeap c := fun c inHeap => by
    rw [InHeap, endCluster, edited.setup]
    exact inHeap
  have high' : run.firstCluster + run.clusterCount ≤ v'.endCluster := by
    rw [endCluster, edited.setup]
    exact high
  refine ⟨?_, fun c inHeap => ?_, fun c inHeap => ?_⟩
  · rw [mark_setup, edited.setup]
    rfl
  · exact (isFree_grant layout.pos low v'.setup.nextSearchCluster (inHeap' c inHeap)).trans
      (and_congr_left' (edited.isFree layout₁ inHeap))
  · exact (fatEntry_grant layout' low high' v'.setup.nextSearchCluster (inHeap' c inHeap)).trans
      (edited.fatEntry layout₁ inHeap)

/-- A search takes nothing. -/
theorem taken_searchAt (v : Volume size) (k : Nat) : Taken home ⟨0, 0⟩ v (v.searchAt k) where
  setup := rfl
  isFree _ _ := (and_iff_left fun has => absurd has.2 (Nat.not_lt_zero _)).symm
  fatEntry _ _ := rfl

theorem putEntries_sectors_ne (raws : List RawDirEntry) {t : Nat} : ∀ {k : Nat} {v : Volume size},
    (∀ j < raws.length, t ≠ (v.slotLocation c (k + j)).sectorId) → (putEntries c k raws v).sectors t =
      v.sectors t := by
  induction raws with
  | nil => exact fun _ => rfl
  | cons raw raws ih =>
    intro k v outside
    have first : t ≠ (v.slotLocation c k).sectorId := outside 0 (Nat.succ_pos _)
    rw [putEntries, ih fun j below => ?_, putEntry, store_sectors_ne v first]
    rw [putEntry_slotLocation, Nat.add_right_comm]
    exact outside (j + 1) (Nat.succ_lt_succ below)

end Volume

namespace Session

variable {size n : Nat} {home : Nat → CacheKind}

/-- Whether the entry set of a file has to be written does not change. -/
def SameEntry (s s' : Session size n) : Prop := s'.touched.isDirEntryDirty = s.touched.isDirEntryDirty

instance : Std.Refl (SameEntry : Session size n → Session size n → Prop) where
  refl _ := rfl

instance : Trans (SameEntry : Session size n → Session size n → Prop) SameEntry SameEntry where
  trans first second := Eq.trans second first

theorem insert_sameEntry (t : TouchedSector) : Exec.Respects SameEntry (insert t : ExFat (Session size n) Unit) := by
  intro s
  change (s.touched.insert t).isDirEntryDirty = s.touched.isDirEntryDirty
  unfold FileDirty.insert
  split
  · rfl
  · split <;> rfl

theorem onFs_sameEntry {α : Type} (m : ExFat (FileSystem size n) α) :
    Exec.Respects SameEntry (onFs m : ExFat (Session size n) α) :=
  fun _ => rfl

theorem onCache_sameEntry {α : Type} (k : CacheKind) (m : ExFat (CacheIo size n) α) :
    Exec.Respects SameEntry (onCache k m : ExFat (Session size n) α) := onFs_sameEntry _

theorem sameEntry_builds : Builds home (SameEntry : Session size n → Session size n → Prop) where
  look _ := rfl
  clock := onFs_sameEntry _
  edit _ _ := .bind (onCache_sameEntry _ _) fun _ => insert_sameEntry _
  search _ _ _ := onFs_sameEntry _
  mark run := Allocator.markAllocated_respects (fun _ _ => .bind (onCache_sameEntry _ _) fun _ =>
    insert_sameEntry _) run true

end Session

namespace FileSession

variable {size n : Nat} {s s' : FileSession size n}

def SameEntry (s s' : FileSession size n) : Prop := s'.file.touched.isDirEntryDirty = s.file.touched.isDirEntryDirty

instance : Std.Refl (SameEntry : FileSession size n → FileSession size n → Prop) where
  refl _ := rfl

instance : Trans (SameEntry : FileSession size n → FileSession size n → Prop) SameEntry SameEntry where
  trans first second := Eq.trans second first

theorem onSession_sameEntry {α : Type} {m : ExFat (Session size n) α} (same : Exec.Respects Session.SameEntry m) :
    Exec.Respects SameEntry (onSession m) := same.zoom fun _ _ kept => kept

theorem onFs_sameEntry {α : Type} (m : ExFat (FileSystem size n) α) :
    Exec.Respects SameEntry (onFs m : ExFat (FileSession size n) α) :=
  fun _ => rfl

end FileSession

theorem File.copyTo_sameEntry {size n : Nat} {home : Nat → CacheKind} (fuel : Nat) (toPath : List Char) :
    Exec.Respects FileSession.SameEntry (copyTo fuel toPath : ExFat (FileSession size n) Unit) := by
  have builds : Session.Builds home (Session.SameEntry : Session size n → Session size n → Prop) :=
    Session.sameEntry_builds
  refine .bind (.bind .get fun s => .pure _) fun numClusters => .bind (FileSession.onFs_sameEntry _) fun run => ?_
  refine .when (.raise _) fun _ =>
    .bind (FileSession.onSession_sameEntry (Session.getOrCreateDirectory_respects builds _ _)) fun d => ?_
  refine .bind .get fun s =>
    .bind (FileSession.onSession_sameEntry (Session.createFileDirEntryAt_respects builds.toSteps _ _ _ _ _ _ _ _))
    fun _ => ?_
  refine .bind (FileSession.onSession_sameEntry (builds.mark _)) fun _ => .bind .get fun s =>
    .bind (getHeapSectorId_respects _ _) fun sector => ?_
  exact (@copySectors_reads size n home _ _ _).mono fun _ _ reads => congrArg FileDirty.isDirEntryDirty reads.touched

namespace Volume

variable {size : Nat}

/-- The byte with number `i` that a file reads as. -/
def content (v : Volume size) (cs : List Nat) (details : FileDetails) (i : Nat) : UInt8 :=
  if i < details.validDataLength then v.fileByte cs i else 0

end Volume

/-- What `copy` is given: a file with its clusters, an accepted name, and a directory with room
for the entry set of the copy. -/
structure CopyTask {size : Nat} (home : Nat → CacheKind) (v : Volume size) (toPath : List Char) where
  details : FileDetails
  clusters : List Nat
  parent : Nat
  directory : List Nat
  slot : Nat
  place : Location
  nameHash : Nat
  count : Nat
  stores : v.Stores home details clusters
  descends : v.Descends home (pathToIter (splitPath toPath).1) v.setup.details.firstClusterOfRootDir parent
  dir : v.Directory home parent directory
  apart : ∀ c ∈ clusters, c ∉ directory
  accepted : hashedName v.setup.upcaseTable (splitPath toPath).2 = .ok (nameHash, count)
  short : count ≤ 255
  spot : v.FirstRoom directory (calcDirEntrySetLen count) slot place

namespace CopyTask

open Volume
open Session (nextPlace iterate_nextPlace)

variable {size n : Nat} {home : Nat → CacheKind} {v : Volume size} {toPath : List Char}

section Data

variable (task : CopyTask home v toPath)

def numClusters : Nat := FileSystem.divCeil task.details.dataLength v.setup.details.clusterLength

/-- The entry set that is created for the copy. -/
def entry (first : Nat) : NewEntry :=
  ⟨(splitPath toPath).2, first, task.details.attributes, Session.allocatedFlags, task.details.validDataLength,
    task.details.dataLength⟩

/-- The heap has as many free clusters in a row as the file needs. -/
def Space : Prop := ∃ first, 2 ≤ first ∧ first + task.numClusters ≤ v.endCluster ∧
  ∀ c, first ≤ c → c < first + task.numClusters → v.IsFree c

/-- What the writer of the entries and the loop over the sectors come to have numbers. -/
structure Counts (first : Nat) : Prop where
  narrow : task.details.validDataLength < 2 ^ v.setup.usizeBits
  sectors : v.dataSector first 0 + FileSystem.divCeil task.details.dataLength size < 2 ^ 32
  entries : ((nextPlace size)^[calcDirEntrySetLen task.count] task.place).sectorId < 2 ^ 32

/-- The file is not empty, its first run is found from where the search starts or, with nothing
free from there on, from the start of the heap, and all numbers fit. -/
def CanCopy : Prop := 0 < task.details.dataLength ∧ ∃ first, v.Fitting task.numClusters first ∧ task.Counts first

/-- The copy: an entry set in the directory, with clusters that hold the same bytes. -/
structure Copied (v' : Volume size) (set : EntrySet) (ts : List Nat) : Prop where
  dir : v'.Directory home task.parent task.directory
  entries : v'.HasSet task.directory task.slot task.place set.raws
  name : set.name = (splitPath toPath).2
  attributes : (set.details task.place).attributes = task.details.attributes
  dataLength : (set.details task.place).dataLength = task.details.dataLength
  validDataLength : (set.details task.place).validDataLength = task.details.validDataLength
  stores : v'.Stores home (set.details task.place) ts
  content : ∀ i < task.details.dataLength, v'.content ts (set.details task.place) i =
    v.content task.clusters task.details i

/-- Where the next search for clusters starts does not matter. -/
def searchAt (k : Nat) : CopyTask home (v.searchAt k) toPath where
  details := task.details
  clusters := task.clusters
  parent := task.parent
  directory := task.directory
  slot := task.slot
  place := task.place
  nameHash := task.nameHash
  count := task.count
  stores :=
    have stores := task.stores
    ⟨stores.count, stores.valid, stores.first, stores.contiguous, fun flag =>
      ⟨(stores.linked flag).linked, (stores.linked flag).ended⟩,
      stores.distinct, stores.inHeap, stores.used, stores.data⟩
  descends := task.descends.searchAt k
  dir := task.dir.searchAt k
  apart := task.apart
  accepted := task.accepted
  short := task.short
  spot := ⟨task.spot.run, task.spot.least, task.spot.here, task.spot.unbroken⟩

variable {task}

theorem units (first : Nat) : (task.entry first).units.length = task.count := by
  have run : (encodeUtf16UpcaseAndHash (splitPath toPath).2 v.setup.upcaseTable : ExFat Unit (Nat × Nat)) () =
      (.ok (task.nameHash, task.count), ()) := by rw [encodeUtf16UpcaseAndHash_run, task.accepted]
  exact (encodeUtf16UpcaseAndHash_ok run).2.1.symm

theorem hash : task.nameHash < 2 ^ 16 ∧ 0 < task.count := by
  have run : (encodeUtf16UpcaseAndHash (splitPath toPath).2 v.setup.upcaseTable : ExFat Unit (Nat × Nat)) () =
      (.ok (task.nameHash, task.count), ()) := by rw [encodeUtf16UpcaseAndHash_run, task.accepted]
  exact ⟨(encodeUtf16UpcaseAndHash_ok run).1, (encodeUtf16UpcaseAndHash_ok run).2.2.1⟩

theorem setLen (first : Nat) : (task.entry first).setLen = calcDirEntrySetLen task.count := by
  rw [NewEntry.setLen, units]

/-- The file fits into its clusters. -/
theorem within (task : CopyTask home v toPath) (layout : Layout size home v.setup) :
    task.details.dataLength ≤ FileSystem.divCeil task.details.dataLength v.setup.details.clusterLength *
      v.setup.details.clusterLength := by
  refine le_divCeil_mul ?_ _
  rw [layout.clusterLength]
  exact Nat.mul_pos layout.pos layout.sectorsPerCluster

theorem numClusters_pos (task : CopyTask home v toPath) (layout : Layout size home v.setup)
    (some_ : 0 < task.details.dataLength) :
    0 < task.numClusters := by
  have room := task.within layout
  by_contra none_
  rw [show FileSystem.divCeil task.details.dataLength v.setup.details.clusterLength =
    0 from Nat.eq_zero_of_not_pos none_, Nat.zero_mul] at room
  omega

theorem capacity (task : CopyTask home v toPath) (layout : Layout size home v.setup) :
    task.details.dataLength < 2 ^ 64 ∧ task.numClusters < 2 ^ 32 := by
  have stores := task.stores
  have bound := layout.clusterBound
  have ids := layout.ids
  have few := File.length_le_heap stores.distinct stores.inHeap
  have number : task.numClusters = task.clusters.length := stores.count.symm
  have cap : Fat.clusterLen < 2 ^ 32 := by decide
  have most : task.numClusters * v.setup.details.clusterLength ≤ (2 ^ 32 - 1) * (2 ^ 32 - 1) :=
    Nat.mul_le_mul (by omega) (by omega)
  exact ⟨((task.within layout).trans most).trans_lt (by decide), by omega⟩

theorem fits (layout : Layout size home v.setup) {first : Nat} (inside : first < v.endCluster) :
    (task.entry first).Fits where
  firstCluster := by
    have ids := layout.ids
    have cap : Fat.clusterLen < 2 ^ 32 := by decide
    change first < 2 + v.setup.bitmap.clusterCount at inside
    change first < 2 ^ 32
    omega
  validDataLength := task.stores.valid.trans_lt (task.capacity layout).1
  dataLength := (task.capacity layout).1
  short := by
    rw [units]
    exact task.short

end Data

end CopyTask

namespace File

open FileSession Volume CopyTask
open Session (nextPlace iterate_nextPlace)

variable {size n : Nat} {home : Nat → CacheKind} {s s' : FileSession size n} {toPath : List Char} {fuel : Nat}
  {run : AllocatedRun}

/-- A handle that can be read, when clusters were taken and directory entries written. -/
theorem readable_of_taken {cs : List Nat} (readable : Readable home cs s)
    (taken : Taken home run (s.fs.volume home) (s'.fs.volume home))
    (search : 2 ≤ s'.fs.setup.nextSearchCluster) (sound : s'.fs.Sound home) (file : s'.file.bare = s.file.bare) :
    Readable home cs s' := by
  have details : s'.fs.fs = s.fs.fs := taken.details
  have file := eq_of_bare file
  refine ⟨⟨sound, taken.layout readable.layout, search, fun c inHeap free => ?_, ?_⟩, ?_, ?_, ?_, ?_⟩
  · have inHeap := taken.inHeap.mp inHeap
    exact taken.isData.mpr (readable.room c inHeap ((taken.isFree c inHeap).mp free).1)
  · rw [file]
    exact taken.owns readable.owns
  · rw [file]
    exact readable.enabled
  · rw [file, details]
    exact readable.clusters
  · rw [file]
    exact readable.valid
  · rw [file, details]
    exact readable.position

/-- What `copy_to` does once it has a run of clusters. -/
def copyRun (fuel : Nat) (toPath : List Char) (run : AllocatedRun) : ExFat (FileSession size n) Unit := do
  let directoryClusterId ← onSession (Session.getOrCreateDirectory fuel (splitPath toPath).1)
  let details := (← get).file.details
  let _ ← onSession (Session.createFileDirEntryAt fuel (splitPath toPath).2 directoryClusterId run.firstCluster
    details.attributes Session.allocatedFlags details.validDataLength details.dataLength)
  onSession (Allocator.markAllocated run true)
  let sectorId ← (← get).fs.fs.getHeapSectorId run.firstCluster
  copySectors (details.dataLength + 1) sectorId fun _ => 0

/-- A run that the search for a copy may come with. -/
structure RunFor {v : Volume size} (task : CopyTask home v toPath) (run : AllocatedRun) : Prop where
  count : run.clusterCount = task.numClusters
  low : 2 ≤ run.firstCluster
  high : run.firstCluster + run.clusterCount ≤ v.endCluster
  free : ∀ c, run.Has c → v.IsFree c

/-- The run is for the sectors of the copy, in a row. -/
theorem RunFor.target {task : CopyTask home (s.fs.volume home) toPath} (found : RunFor task run)
    (fit : Layout size home s.fs.setup)
    (room : ∀ c, (s.fs.volume home).InHeap c → (s.fs.volume home).IsFree c → (s.fs.volume home).IsData home c)
    (taken : Taken home run (s.fs.volume home) (s'.fs.volume home)) (same : s'.file.details = task.details) :
    Target home task.clusters run.clusters ((s.fs.volume home).dataSector run.firstCluster 0) s' := by
  have details : s'.fs.fs = s.fs.fs := taken.details
  have inHeap : ∀ c ∈ run.clusters, (s.fs.volume home).InHeap c := fun c member =>
    have has := AllocatedRun.mem_clusters.mp member
    ⟨found.low.trans has.1, has.2.trans_le found.high⟩
  have pos : 0 < s.fs.fs.clusterLength := by
    rw [show s.fs.fs.clusterLength = size * s.fs.fs.sectorsPerCluster from fit.clusterLength]
    exact Nat.mul_pos fit.pos fit.sectorsPerCluster
  have free : ∀ c ∈ run.clusters, (s.fs.volume home).IsFree c :=
    fun c member => found.free c (AllocatedRun.mem_clusters.mp member)
  have count : run.clusters.length = task.numClusters := (List.length_range').trans found.count
  refine ⟨List.nodup_range', fun c member => taken.inHeap.mpr (inHeap c member),
    fun c member => taken.isData.mpr (room c (inHeap c member) (free c member)),
    fun c member source => task.stores.used c source (free c member), ?_, fun k inside => ?_⟩
  · rw [same, count, details]
    exact le_divCeil_mul pos _
  · rw [details] at inside
    have sector : (s'.fs.volume home).fileSector run.clusters k = (s.fs.volume home).fileSector run.clusters k := by
      rw [fileSector, fileSector, dataSector, dataSector, taken.details]
    rw [sector]
    exact fileSector_range' fit found.low
      (by rw [← List.length_range' (s := run.firstCluster) (n := run.clusterCount)]; exact inside)

/-- The volume at the head of the loop of `copy_to`. -/
structure Prepared {v : Volume size} (task : CopyTask home v toPath) (run : AllocatedRun) (raws : List RawDirEntry)
    (v' : Volume size) :
    Prop where
  taken : Taken home run v v'
  entries : v'.HasSet task.directory task.slot task.place raws
  others : ∀ t, home t = .data → (∀ e ∈ v.dirEntries task.directory, t ≠ e.2.sectorId) → v'.sectors t = v.sectors t

/-- The entries are written, then the run is marked. -/
theorem prepared_of_put {v : Volume size} {task : CopyTask home v toPath} (room : rawEntryLen ≤ size)
    (layout : Layout size home v.setup)
    (low : 2 ≤ run.firstCluster) (high : run.firstCluster + run.clusterCount ≤ v.endCluster)
    {raws : List RawDirEntry} {c k : Nat}
    (start : task.place = v.slotLocation c k) (numbered : ∀ j < raws.length, ∃ raw,
      (v.dirEntries task.directory)[task.slot + j]? = some (raw, v.slotLocation c (k + j))) :
    Prepared task run raws ((putEntries c k raws v.tick).mark run true) := by
  have data : ∀ j < raws.length, home (v.tick.slotLocation c (k + j)).sectorId = .data := by
    intro j below
    obtain ⟨raw, there⟩ := numbered j below
    rw [tick_slotLocation]
    exact (task.dir.walk.place_data room layout there).1
  have edited : Edited home v (putEntries c k raws v.tick) := (tick_edited v).trans (putEntries_edited raws data)
  have high' : run.firstCluster + run.clusterCount ≤ (putEntries c k raws v.tick).endCluster := by
    rw [endCluster, edited.setup]
    exact high
  have marked : ∀ t, home t = .data → ((putEntries c k raws v.tick).mark run true).sectors t =
    (putEntries c k raws v.tick).sectors t :=
    fun t here => mark_others (edited.layout layout).toBitmapLayout low high' true (by rw [here]; decide)
  refine ⟨taken_of_mark layout edited low high, fun j raw here => ?_, fun t here outside => ?_⟩
  · have below := (List.getElem?_eq_some_iff.mp here).1
    obtain ⟨old, there⟩ := numbered j below
    have details : ((putEntries c k raws v.tick).mark run true).setup.details = v.setup.details := by
      rw [mark_setup, edited.details]
    have written := entryAt_putEntries room raws (c := c) (k := k) (j := k + j) (v := v.tick)
    rw [if_pos (Nat.le_add_right k j), Nat.add_sub_cancel_left, here, Option.getD_some, tick_slotLocation] at written
    have entry : ((putEntries c k raws v.tick).mark run true).entryAt (v.slotLocation c (k + j)) = raw := by
      rw [← written, entryAt, entryAt, marked _ (task.dir.walk.place_data room layout there).1]
    rw [dirEntries_of_details details, List.getElem?_map, there, Option.map_some, start,
      iterate_nextPlace room, entry]
  · rw [marked t here, putEntries_sectors_ne raws fun j below => ?_, tick_sectors]
    obtain ⟨old, there⟩ := numbered j below
    rw [tick_slotLocation]
    exact outside _ (List.mem_of_getElem? there)

section Run

variable {task : CopyTask home (s.fs.volume home) toPath} {now : EncodedTimestamp} {m : Nat}

/-- What the loop leaves, when it comes to its end, is a copy. -/
theorem Prepared.copied (room : rawEntryLen ≤ size) (readable : Readable home task.clusters s)
    (found : RunFor task run) (clock : now.Fits)
    (prepared : Prepared task run ((task.entry run.firstCluster).raws task.nameHash now) (s'.fs.volume home))
    (same : s'.file.details = task.details) {s'' : FileSession size n} (some_ : 0 < task.details.dataLength)
    (copied : FileSession.Copied home task.clusters run.clusters m s' s'')
    (all : s''.file.cursor = task.details.dataLength) : ∃ set, task.Copied (s''.fs.volume home) set run.clusters := by
  have layout := readable.layout
  have taken := prepared.taken
  have target := found.target layout readable.room taken same
  have details : (s'.fs.volume home).setup.details = (s.fs.volume home).setup.details := taken.details
  have layout' := taken.layout layout
  have rewritten := copied.rewritten
  have after : Taken home run (s.fs.volume home) (s''.fs.volume home) := taken.rewritten layout rewritten
  have free : ∀ c ∈ run.clusters, (s.fs.volume home).IsFree c :=
    fun c member => found.free c (AllocatedRun.mem_clusters.mp member)
  have inHeap : ∀ c ∈ run.clusters, (s.fs.volume home).InHeap c :=
    fun c member => taken.inHeap.mp (target.inHeap c member)
  have count : run.clusters.length = task.numClusters := (List.length_range').trans found.count
  -- the file has a cluster at least
  have inside : run.firstCluster < (s.fs.volume home).endCluster := by
    have high := found.high
    have wanted := found.count ▸ task.numClusters_pos layout some_
    omega
  have named : 0 < (task.entry run.firstCluster).units.length := by
    rw [units]
    exact task.hash.2
  have flags : (task.entry run.firstCluster).flags.noFatChain = true := rfl
  refine ⟨(task.entry run.firstCluster).toSet task.nameHash now (task.fits layout inside) task.hash.1 named clock,
    after.directory task.dir, ?_, rfl, ?_, ?_, ?_, ?_, ?_⟩
  · rw [NewEntry.toSet_raws]
    refine prepared.entries.of_sectors (clusterSlots_pos room layout') (congrArg Setup.details rewritten.setup)
      fun e member => ?_
    obtain ⟨j, there⟩ := List.mem_iff_getElem?.mp member
    have dir := taken.directory task.dir
    obtain ⟨_, _, c, mine, i, within, sector⟩ := dir.walk.place_data room layout' there
    refine copied.foreign _ fun l insideL => ?_
    rw [sector]
    exact dataSector_apart layout' target.inHeap (dir.inHeap c mine).1
      (fun other => task.dir.used c mine (free c other)) within insideL
  · rw [NewEntry.toSet_details]
    rfl
  · rw [NewEntry.toSet_details]
    rfl
  · rw [NewEntry.toSet_details]
    rfl
  · rw [NewEntry.toSet_details]
    refine ⟨?_, task.stores.valid, fun c head => ?_, fun _ => ?_, fun flag => ?_, target.distinct, fun c member =>
      after.inHeap.mpr (inHeap c member),
      fun c member still => ?_, fun c member => after.isData.mpr (readable.room c (inHeap c member) (free c member))⟩
    · rw [count, after.details]
      rfl
    · have wanted := found.count ▸ task.numClusters_pos layout some_
      rw [AllocatedRun.clusters, List.head?_range', if_neg (Nat.ne_of_gt wanted)] at head
      exact (Option.some.inj head).symm
    · rw [count, AllocatedRun.clusters, found.count]
      rfl
    · exact absurd (flags.symm.trans flag) (by decide)
    · exact ((after.isFree c (inHeap c member)).mp still).2 (AllocatedRun.mem_clusters.mp member)
  · intro i below
    rw [NewEntry.toSet_details]
    have valid : ({ (task.entry run.firstCluster).details now task.place with
      accessed := { now with increment10ms := 0 } } : FileDetails).validDataLength = task.details.validDataLength :=
      rfl
    have byte := copied.bytes i (all ▸ below)
    rw [contentByte, same] at byte
    rw [Volume.content, Volume.content, valid, byte]
    by_cases isValid : i < task.details.validDataLength
    · -- the source's sectors are none of the directory's
      have sector : i / size < task.clusters.length * (s.fs.volume home).setup.details.sectorsPerCluster := by
        have within := task.within layout
        have length : (s.fs.volume home).setup.details.clusterLength = _ := layout.clusterLength
        rw [← task.stores.count, length] at within
        rw [Nat.div_lt_iff_lt_mul layout.pos, Nat.mul_assoc, Nat.mul_comm _ size]
        exact below.trans_le within
      have place : (s'.fs.volume home).fileSector task.clusters (i / size) =
          (s.fs.volume home).fileSector task.clusters (i / size) := by
        rw [fileSector, fileSector, dataSector, dataSector, details]
      rw [if_pos isValid, if_pos isValid, if_pos isValid, fileByte, fileByte, place,
        prepared.others _ (fileSector_home layout task.stores.data sector) fun e member => ?_]
      obtain ⟨j, there⟩ := List.mem_iff_getElem?.mp member
      obtain ⟨_, _, c, mine, o, within, same⟩ := task.dir.walk.place_data room layout there
      rw [same]
      exact (dataSector_apart layout task.stores.inHeap (task.dir.inHeap c mine).1
        (fun other => task.apart c other mine) within sector).symm
    · rw [if_neg isValid, if_neg isValid]

theorem onSession_ok {α : Type} {m : ExFat (Session size n) α} {a : α} (ran : onSession m s = (.ok a, s')) :
    ∃ t, m ⟨s.fs, s.file.touched⟩ = (.ok a, t) := by
  have result : (m ⟨s.fs, s.file.touched⟩).1 = .ok a := congrArg Prod.fst ran
  exact ⟨_, Exec.run_of_fst result⟩

/-- The directory of the copy is found. -/
theorem descends_run (room : rawEntryLen ≤ size) (readable : Readable home task.clusters s)
    (enough : (s.fs.volume home).mostSlots < fuel) : ∃ s₁ : FileSession size n,
    onSession (Session.getOrCreateDirectory fuel (splitPath toPath).1) s = (.ok task.parent, s₁) ∧ s₁.fs.Sound home ∧
      s₁.fs.volume home = s.fs.volume home ∧ s₁.file.bare = s.file.bare := by
  have down : Session.Leads home (Session.getOrCreateDirectory fuel (splitPath toPath).1) ⟨s.fs, s.file.touched⟩
    (.ok task.parent)
      (s.fs.volume home) :=
        .get (Session.getOrCreateIn_leads room readable.layout enough task.descends readable.sound rfl)
  obtain ⟨s₁, run₁, sound₁, shown₁⟩ := leads_onSession down
  exact ⟨s₁, run₁, sound₁, (Prod.mk.inj shown₁).1, (Prod.mk.inj shown₁).2⟩

/-- The clusters of the copy are marked once its entries are written. -/
theorem marks_run (readable : Readable home task.clusters s) (found : RunFor task run) (wanted : 0 < run.clusterCount)
    {raws : List RawDirEntry} {c k : Nat} {s₂ : FileSession size n} (sound₂ : s₂.fs.Sound home)
    (volume₂ : s₂.fs.volume home = putEntries c k raws (s.fs.volume home).tick) (file₂ : s₂.file.bare = s.file.bare)
    (prepared : Prepared task run raws ((putEntries c k raws (s.fs.volume home).tick).mark run true)) :
    ∃ s₃ : FileSession size n, onSession (Allocator.markAllocated run true) s₂ = (.ok (), s₃) ∧
      Prepared task run raws (s₃.fs.volume home) ∧ Readable home task.clusters s₃ ∧ s₃.file.bare = s.file.bare := by
  have layout := readable.layout
  rw [← volume₂] at prepared
  have layout₂ : Layout size home s₂.fs.setup := by
    have after := prepared.taken.layout layout
    rwa [mark_setup] at after
  have high₂ : run.firstCluster + run.clusterCount ≤ (s₂.fs.volume home).endCluster := by
    have setup := prepared.taken.setup
    rw [mark_setup] at setup
    rw [endCluster, setup]
    exact found.high
  obtain ⟨s₃, run₃, sound₃, shown₃⟩ :=
    leads_onSession (Allocator.markAllocated_leads (s := ⟨s₂.fs, s₂.file.touched⟩) sound₂
    layout₂.toBitmapLayout true wanted found.low high₂)
  have volume₃ : s₃.fs.volume home = (s₂.fs.volume home).mark run true := (Prod.mk.inj shown₃).1
  have file₃ : s₃.file.bare = s.file.bare := (Prod.mk.inj shown₃).2.trans file₂
  have search₃ : 2 ≤ s₃.fs.setup.nextSearchCluster := by
    have setup₃ : s₃.fs.setup = (s.fs.volume home).tick.setup := by
      have setup := congrArg Volume.setup volume₃
      rw [mark_setup, volume₂, putEntries_setup] at setup
      exact setup
    rw [setup₃, tick_setup]
    exact readable.search
  rw [← volume₃] at prepared
  exact ⟨s₃, run₃, prepared, readable_of_taken readable prepared.taken search₃ sound₃ file₃, file₃⟩

/-- The loop over the sectors, from the first of the marked clusters on. -/
theorem copies_run (readable : Readable home task.clusters s) (found : RunFor task run)
    (some_ : 0 < task.details.dataLength)
    (inHeap : (s.fs.volume home).InHeap run.firstCluster) {raws : List RawDirEntry} {s₃ : FileSession size n}
    (prepared : Prepared task run raws (s₃.fs.volume home)) (readable₃ : Readable home task.clusters s₃)
    (details₃ : s₃.file.details = task.details) (begin₃ : s₃.file.cursor = 0) : ∃ sectorId,
    (s₃.fs.fs.getHeapSectorId run.firstCluster : ExFat (FileSession size n) Nat) s₃ = (.ok sectorId, s₃) ∧
      (((task.details.validDataLength < 2 ^ s.fs.usizeBits ∧
          (s.fs.volume home).dataSector run.firstCluster 0 + FileSystem.divCeil task.details.dataLength size <
            2 ^ 32) ∧
        ∃ m s', copySectors (task.details.dataLength + 1) sectorId (fun _ => 0) s₃ = (.ok (), s') ∧
          FileSession.Copied home task.clusters run.clusters m s₃ s' ∧ s'.file.cursor = task.details.dataLength) ∨
      (¬ (task.details.validDataLength < 2 ^ s.fs.usizeBits ∧
          (s.fs.volume home).dataSector run.firstCluster 0 + FileSystem.divCeil task.details.dataLength size <
            2 ^ 32) ∧
        ∀ s', copySectors (task.details.dataLength + 1) sectorId (fun _ => 0) s₃ ≠ (.ok (), s'))) := by
  have layout := readable.layout
  have taken := prepared.taken
  have start : (s₃.fs.volume home).dataSector run.firstCluster 0 =
      (s.fs.volume home).dataSector run.firstCluster 0 := by
    rw [dataSector, dataSector, taken.details]
  have bits : s₃.fs.usizeBits = s.fs.usizeBits := by
    have setup := congrArg Setup.usizeBits taken.setup
    exact setup
  have loop := copySectors_spec (found.target layout readable.room taken details₃) readable₃
    (task.details.dataLength + 1)
    (fun _ => 0) (readable₃.copied_nil begin₃) (by rw [details₃]; omega)
  rw [details₃, bits, copiesFrom_zero layout.pos some_ task.stores.valid, Nat.add_zero] at loop
  refine ⟨(s.fs.volume home).dataSector run.firstCluster 0, ?_, loop⟩
  rw [← start]
  exact getHeapSectorId_run (taken.layout layout) (taken.inHeap.mpr inHeap) s₃

/-- With a run for it the copy is made exactly when all numbers fit. -/
theorem copyRun_cases {v : Volume size} (shown : s.fs.volume home = v) {task : CopyTask home v toPath}
    (room : rawEntryLen ≤ size)
    (readable : Readable home task.clusters s) (begin : s.file.cursor = 0) (same : s.file.details = task.details)
    (clocked : v.setup.Clocked) (enough : v.mostSlots < fuel) (some_ : 0 < task.details.dataLength)
    (found : RunFor task run) :
    (task.Counts run.firstCluster ∧ ∃ s' set, copyRun fuel toPath run s = (.ok (), s') ∧ s'.fs.Sound home ∧
      task.Copied (s'.fs.volume home) set run.clusters) ∨
    (¬ task.Counts run.firstCluster ∧ ∀ s', copyRun fuel toPath run s ≠ (.ok (), s')) := by
  subst shown
  have layout := readable.layout
  have wanted : 0 < run.clusterCount := found.count ▸ task.numClusters_pos layout some_
  have inside : run.firstCluster < (s.fs.volume home).endCluster := by
    have high := found.high
    omega
  obtain ⟨s₁, run₁, sound₁, volume₁, file₁⟩ := descends_run room readable enough
  have details₁ : s₁.file.details = task.details := by
    rw [eq_of_bare file₁]
    exact same
  have setup₁ : s₁.fs.setup = s.fs.setup := congrArg Volume.setup volume₁
  -- the entry set
  have put := @NewEntry.create_first _ _ home ⟨s₁.fs, s₁.file.touched⟩ (task.entry run.firstCluster) task.parent
    task.slot fuel task.directory
    task.place room (by rw [setup₁]; exact layout) sound₁ (by rw [volume₁]; exact task.dir)
      (by rw [setup₁]; exact clocked)
    (task.fits layout inside) task.nameHash task.count
    (by rw [show s₁.fs.upcaseTable = s.fs.upcaseTable from congrArg Setup.upcaseTable setup₁]; exact task.accepted)
    (by rw [volume₁, setLen]; exact task.spot) (by rw [volume₁]; exact enough)
  rw [copyRun, Exec.bind_of_ok run₁, Exec.bind_of_ok (Exec.get_apply s₁), details₁]
  rw [volume₁, setLen] at put
  rcases put with ⟨entries, c, k, place, numbered, leads⟩ | ⟨wide, fails⟩
  · obtain ⟨s₂, run₂, sound₂, shown₂⟩ := leads_onSession leads
    have created : onSession
      (Session.createFileDirEntryAt fuel (splitPath toPath).2 task.parent run.firstCluster task.details.attributes
        Session.allocatedFlags task.details.validDataLength task.details.dataLength) s₁ = (.ok _, s₂) := run₂
    have file₂ : s₂.file.bare = s₁.file.bare := (Prod.mk.inj shown₂).2
    have volume₂ : s₂.fs.volume home =
      putEntries c k ((task.entry run.firstCluster).raws task.nameHash s.fs.setup.now)
        (s.fs.volume home).tick := by
      rw [← setup₁]
      exact (Prod.mk.inj shown₂).1
    have length := NewEntry.length_raws (task.fits layout inside).short task.nameHash s.fs.setup.now
    rw [setLen] at length
    obtain ⟨s₃, run₃, prepared, readable₃, file₃⟩ :=
      marks_run readable found wanted sound₂ volume₂ (file₂.trans file₁)
      (prepared_of_put room layout found.low found.high place (by rw [length]; exact numbered))
    have details₃ : s₃.file.details = task.details := by
      rw [eq_of_bare file₃]
      exact same
    have begin₃ : s₃.file.cursor = 0 := by
      rw [eq_of_bare file₃]
      exact begin
    obtain ⟨sectorId, sector, loop⟩ :=
      copies_run readable found some_ ⟨found.low, inside⟩ prepared readable₃ details₃ begin₃
    rw [Exec.bind_of_ok created, Exec.bind_of_ok run₃, Exec.bind_of_ok (Exec.get_apply s₃), Exec.bind_of_ok sector]
    rcases loop with ⟨⟨narrow, sectors⟩, m, s', ran, copied, all⟩ | ⟨stuck, fails⟩
    · obtain ⟨set, done⟩ := prepared.copied room readable found clocked.now_fits details₃ some_ copied all
      exact Or.inl ⟨⟨narrow, sectors, entries⟩, s', set, ran, copied.readable.sound, done⟩
    · exact Or.inr ⟨fun counts => stuck ⟨counts.narrow, counts.sectors⟩, fails⟩
  · refine Or.inr ⟨fun counts => wide counts.entries, fun s' ran => ?_⟩
    obtain ⟨created, _, ran, _⟩ := Exec.bind_eq_ok.mp ran
    obtain ⟨t, ran⟩ := onSession_ok ran
    exact fails created t ran

end Run

theorem copyTo_found {num : Nat} {s₁ : FileSession size n} (number : numClusters s = (.ok num, s))
    (search : onFs (Allocator.findFreeClusters none num .longestRun) s = (.ok run, s₁))
    (equal : run.clusterCount = num) :
    copyTo fuel toPath s = copyRun fuel toPath run s₁ := by
  rw [copyTo]
  dsimp only
  rw [Exec.bind_of_ok number, Exec.bind_of_ok search, if_neg (not_not_intro equal)]
  rfl

theorem copyTo_ok {num : Nat} (number : numClusters s = (.ok num, s)) (ran : copyTo fuel toPath s = (.ok (), s')) :
    ∃ run s₁, onFs (Allocator.findFreeClusters none num .longestRun) s = (.ok run, s₁) ∧ run.clusterCount = num := by
  rw [copyTo] at ran
  dsimp only at ran
  rw [Exec.bind_of_ok number] at ran
  obtain ⟨run, s₁, search, ran⟩ := Exec.bind_eq_ok.mp ran
  refine ⟨run, s₁, search, ?_⟩
  by_contra short
  rw [if_pos short] at ran
  cases ran

/-- The copy is made exactly when it can be. -/
theorem copyTo_cases {v : Volume size} (shown : s.fs.volume home = v) {task : CopyTask home v toPath}
    (room : rawEntryLen ≤ size)
    (readable : Readable home task.clusters s) (begin : s.file.cursor = 0) (same : s.file.details = task.details)
    (clocked : v.setup.Clocked) (enough : v.mostSlots < fuel) :
    (task.CanCopy ∧ ∃ s' set ts, copyTo fuel toPath s = (.ok (), s') ∧ s'.fs.Sound home ∧
      task.Copied (s'.fs.volume home) set ts) ∨
    (¬ task.CanCopy ∧ ∀ s', copyTo fuel toPath s ≠ (.ok (), s')) := by
  subst shown
  have layout := readable.layout
  have number : numClusters s = (.ok task.numClusters, s) := by
    rw [numClusters, Exec.bind_of_ok (Exec.get_apply s), same]
    exact congrArg (fun k => (Except.ok k, s)) (Nat.mod_eq_of_lt (task.capacity layout).2)
  by_cases some_ : 0 < task.details.dataLength
  · have wanted := task.numClusters_pos layout some_
    rcases Allocator.findFreeClusters_longest readable.sound layout.toBitmapLayout wanted readable.search with
      ⟨first, fitting, leads⟩ | ⟨none_, short⟩
    · obtain ⟨low, high, free⟩ := fitting.low readable.search
      obtain ⟨s₁, search, sound₁, shown₁⟩ := leads_onFs leads
      have volume₁ : s₁.fs.volume home = (s.fs.volume home).searchAt (first + task.numClusters) :=
        (Prod.mk.inj shown₁).1
      have file₁ : s₁.file.bare = s.file.bare := (Prod.mk.inj shown₁).2
      have search₁ : 2 ≤ s₁.fs.setup.nextSearchCluster := by
        rw [show s₁.fs.setup = _ from congrArg Volume.setup volume₁]
        exact low.trans (Nat.le_add_right _ _)
      have readable₁ := readable_of_taken readable (volume₁ ▸ taken_searchAt _ _) search₁ sound₁ file₁
      have found : RunFor (task.searchAt (first + task.numClusters)) ⟨first, task.numClusters⟩ :=
        ⟨rfl, low, high, fun c has => free c has.1 has.2⟩
      have copied := copyRun_cases volume₁ room readable₁ (by rw [eq_of_bare file₁]; exact begin)
        (by rw [eq_of_bare file₁]; exact same) clocked enough some_ found
      rw [copyTo_found number search rfl]
      rcases copied with ⟨counts, s', set, ran, sound', done⟩ | ⟨wide, fails⟩
      · refine Or.inl ⟨⟨some_, first, fitting, counts.narrow, counts.sectors, counts.entries⟩, s', set,
          AllocatedRun.clusters ⟨first, task.numClusters⟩, ran, sound', ?_⟩
        exact ⟨done.dir, done.entries, done.name, done.attributes, done.dataLength, done.validDataLength, done.stores,
          done.content⟩
      · refine Or.inr ⟨fun ⟨_, other, fitting', counts⟩ => wide ?_, fails⟩
        have counts := (fitting'.unique wanted fitting) ▸ counts
        exact ⟨counts.narrow, counts.sectors, counts.entries⟩
    · refine Or.inr ⟨fun ⟨_, first, fitting, _⟩ => none_ first fitting, fun s' ran => ?_⟩
      obtain ⟨run, s₁, search, equal⟩ := copyTo_ok number ran
      obtain ⟨fs', found⟩ : ∃ fs', Allocator.findFreeClusters none task.numClusters .longestRun s.fs =
        (.ok run, fs') :=
        ⟨_, Exec.run_of_fst (congrArg Prod.fst search)⟩
      have less := short run fs' found
      omega
  · have none_ : task.numClusters = 0 := by
      have pos : 0 < (s.fs.volume home).setup.details.clusterLength := readable.toHolds.clusterLength.2.1
      exact Nat.le_zero.mp ((divCeil_le pos).mpr (by omega))
    refine Or.inr ⟨fun can => some_ can.1, fun s' ran => ?_⟩
    obtain ⟨run, s₁, search, equal⟩ := copyTo_ok number ran
    rw [none_] at search equal
    obtain ⟨fs', found⟩ : ∃ fs', Allocator.findFreeClusters none 0 .longestRun s.fs = (.ok run, fs') :=
      ⟨_, Exec.run_of_fst (congrArg Prod.fst search)⟩
    have more := Allocator.findFreeClusters_none readable.sound layout.toBitmapLayout readable.search found
    omega

/-- Closing a handle whose entry set is as on disk. -/
theorem close_clean (sound : s.fs.Sound home) (clean : s.file.touched.isDirEntryDirty = false) :
    ∃ s', close s = (.ok (), s') ∧ FileSystem.Served home s.fs s'.fs := by
  obtain ⟨fs', run, served, _⟩ := Session.flush_spec (s := ⟨s.fs, s.file.touched⟩) sound
  refine ⟨⟨fs', { s.file with touched := .new }⟩, ?_, served⟩
  rw [close, flush, Exec.bind_of_ok (Exec.get_apply s)]
  dsimp only
  rw [clean, if_neg Bool.false_ne_true, onSession, Exec.zoom_apply, run]

end File

namespace FileSystem

open Volume File

variable {size n : Nat} {home : Nat → CacheKind} {fs : FileSystem size n} {fromPath toPath : List Char} {fuel : Nat}

theorem copy_cases (room : rawEntryLen ≤ size) (fit : fs.Fit home) (clocked : fs.setup.Clocked)
    (enough : (fs.volume home).mostSlots < fuel)
    (other : fromPath ≠ toPath) (task : CopyTask home (fs.volume home) toPath)
    (source : (fs.volume home).Leaf home (some attrArchive) (pathToIter fromPath) fs.fs.firstClusterOfRootDir
      (.ok (some task.details))) :
    (task.CanCopy ∧ ∃ fs' set ts, copy fuel fromPath toPath fs = (.ok (), fs') ∧
      task.Copied (fs'.volume home) set ts) ∨
    (¬ task.CanCopy ∧ ∀ fs', copy fuel fromPath toPath fs ≠ (.ok (), fs')) := by
  obtain ⟨fs₁, found, _⟩ := findFileInner_leads room fit.sound fit.layout enough source
  have opening : ∃ fs', «open» fuel fromPath { read := true } fs =
    (.ok (opened task.details task.clusters fs'.fs.clusterLength
      { read := true }), fs') ∧ fs'.Fit home ∧ fs'.volume home = fs.volume home :=
        open_found fit found task.stores rfl rfl
  obtain ⟨fs₂, opens, fit₂, volume₂⟩ := opening
  have stores₂ : (fs₂.volume home).Stores home task.details task.clusters := by
    rw [volume₂]
    exact task.stores
  have readable : FileSession.Readable home task.clusters
    ⟨fs₂, opened task.details task.clusters fs₂.fs.clusterLength { read := true }⟩ :=
    FileSession.readable_of_opened fit₂ stores₂ rfl rfl
  have cases :=
    copyTo_cases (s := ⟨fs₂, opened task.details task.clusters fs₂.fs.clusterLength { read := true }⟩) volume₂ room
    readable rfl rfl
    clocked enough
  have opening : copy fuel fromPath toPath fs =
    withFile (opened task.details task.clusters fs₂.fs.clusterLength { read := true })
      (do copyTo fuel toPath; close) fs₂ := by
    rw [copy, Exec.bind_of_ok (mount_of_mounted fit.layout.mounted), if_neg other]
    exact Exec.bind_of_ok opens
  rw [opening]
  rcases cases with ⟨can, s', set, ts, ran, sound, done⟩ | ⟨cannot, fails⟩
  · have clean :=
      @File.copyTo_sameEntry size n home fuel toPath
      ⟨fs₂, opened task.details task.clusters fs₂.fs.clusterLength { read := true }⟩
    rw [ran] at clean
    obtain ⟨s'', closed, served⟩ := close_clean sound clean
    refine Or.inl ⟨can, s''.fs, set, ts, ?_, served.volume ▸ done⟩
    rw [withFile, Exec.bind_of_ok ran, closed]
  · refine Or.inr ⟨cannot, fun fs' ran => ?_⟩
    have result : ((copyTo fuel toPath >>= fun _ => close : ExFat (FileSession size n) Unit)
        ⟨fs₂, opened task.details task.clusters fs₂.fs.clusterLength { read := true }⟩).1 = .ok () :=
          congrArg Prod.fst ran
    obtain ⟨_, s', copied, _⟩ := Exec.bind_eq_ok.mp (Exec.run_of_fst result)
    exact fails s' copied

/-- What is expected of `copy`: with as many free clusters in a row as it needs it succeeds and copies everything. -/
def Copies (home : Nat → CacheKind) (fuel : Nat) (fromPath : List Char) (fs : FileSystem size n)
    (task : CopyTask home (fs.volume home) toPath) : Prop :=
  task.Space → ∃ fs' set ts, copy fuel fromPath toPath fs = (.ok (), fs') ∧ task.Copied (fs'.volume home) set ts

/-- It does so exactly when the file is not empty, the clusters are found without a shorter run
before them, and the numbers fit. -/
theorem copies_iff (room : rawEntryLen ≤ size) (fit : fs.Fit home) (clocked : fs.setup.Clocked)
    (enough : (fs.volume home).mostSlots < fuel)
    (other : fromPath ≠ toPath) (task : CopyTask home (fs.volume home) toPath)
    (source : (fs.volume home).Leaf home (some attrArchive) (pathToIter fromPath) fs.fs.firstClusterOfRootDir
      (.ok (some task.details))) :
    Copies home fuel fromPath fs task ↔ (task.Space → task.CanCopy) := by
  refine imp_congr_right fun _ => ?_
  rcases copy_cases room fit clocked enough other task source with ⟨can, copied⟩ | ⟨cannot, fails⟩
  · exact iff_of_true copied can
  · exact iff_of_false (fun ⟨fs', _, _, ran, _⟩ => fails fs' ran) cannot

end FileSystem

section Files

open File FileSystem Volume

/-- The entries of a file `f` with two clusters and of an empty file `g`. -/
def fullEntry : NewEntry := ⟨['f'], 3, attrArchive, Session.allocatedFlags, 600, 1024⟩

def emptyEntry : NewEntry := ⟨['g'], noClusterId, attrArchive, Session.allocatedFlags, 0, 0⟩

/-- A root directory with both of them, and the clusters from 5 on free. -/
def copyVolume : FileSystem 512 1 :=
  { smallVolume with
    upcaseTable := .default
    dev := ⟨fun s =>
      if s = 10 then fun i => if i.val = 0 then 7 else 0
      else if s = 100 then entrySector (fullEntry.raws 35 {} ++ emptyEntry.raws 32803 {})
      else if s = 20 then fun _ => 0
      else fun i => UInt8.ofNat i.val, [], []⟩ }

theorem copyVolume_data (c : Nat) : (copyVolume.volume smallHome).IsData smallHome c := by
  intro i inside
  have one : i < 1 := inside
  have sector : (copyVolume.volume smallHome).dataSector c i = 100 + (c - 2) * 1 + i := rfl
  rw [sector, smallHome, if_neg (by omega), if_neg (by omega)]

theorem copyVolume_fit : copyVolume.Fit smallHome where
  sound := sound_of_new _ rfl fun k => by cases k <;> rfl
  layout := smallVolume_layout.of_same rfl rfl rfl rfl
  search := le_rfl
  room c _ _ := copyVolume_data c

theorem copyVolume_directory : (copyVolume.volume smallHome).Directory smallHome 2 [2] where
  head := rfl
  threads := ⟨.singleton _, fun c final => by
    cases final
    decide +kernel⟩
  distinct := by decide
  inHeap c member := by
    rw [List.mem_singleton.mp member]
    exact ⟨by decide, by decide⟩
  used c member := by
    rw [List.mem_singleton.mp member]
    unfold IsFree
    decide +kernel
  data c _ := copyVolume_data c

/-- Both sets take three slots, and the rest of the directory is free. -/
theorem copyVolume_slots (j : Nat) (inside : j < 16) :
    ∃ raw, (((copyVolume.volume smallHome).dirEntries [2]).map Prod.fst)[j]? = some raw ∧ (InUse raw ↔ j < 6) := by
  have slots : ((copyVolume.volume smallHome).dirEntries [2]).map (fun e => decide (InUse e.1)) =
      (List.range 16).map (fun j => decide (j < 6)) := by decide +kernel
  have marks := congrArg (·[j]?) slots
  have there : ((List.range 16).map (fun j => decide (j < 6)))[j]? = some (decide (j < 6)) := by
    rw [List.getElem?_map, List.getElem?_range inside]
    rfl
  obtain ⟨e, at_, used⟩ := Option.map_eq_some_iff.mp ((List.getElem?_map ..).symm.trans (marks.trans there))
  exact ⟨e.1, by rw [List.getElem?_map, at_]; rfl, decide_eq_decide.mp used⟩

theorem copyVolume_room : (copyVolume.volume smallHome).FirstRoom [2] (calcDirEntrySetLen 1) 6 ⟨100, 6⟩ where
  run := by
    refine ⟨by decide +kernel, fun i raw low high there inUse => ?_⟩
    have three : calcDirEntrySetLen 1 = 3 := by decide
    obtain ⟨raw', there', used⟩ := copyVolume_slots i (by omega)
    cases there'.symm.trans there
    exact absurd (used.mp inUse) (Nat.not_lt.mpr low)
  least j below run := by
    obtain ⟨raw, there, used⟩ := copyVolume_slots j (by omega)
    exact run.2 j raw le_rfl (Nat.lt_add_of_pos_right (by decide)) there (used.mpr below)
  here := by
    have place : ((copyVolume.volume smallHome).dirEntries [2])[6]?.map Prod.snd = some ⟨100, 6⟩ := by decide +kernel
    obtain ⟨e, there, same⟩ := Option.map_eq_some_iff.mp place
    exact ⟨e.1, same ▸ there⟩
  unbroken q c low high := by
    have slots : (copyVolume.volume smallHome).clusterSlots = 16 := by decide
    have three : calcDirEntrySetLen 1 = 3 := by decide
    rw [slots] at low high
    omega

theorem fullEntry_stores : (copyVolume.volume smallHome).Stores smallHome (fullEntry.details {} ⟨100, 0⟩) [3, 4] where
  count := by decide
  valid := by decide
  first c head := (Option.some.inj head).symm
  contiguous _ := by decide
  linked flag := absurd flag (by decide)
  distinct := by decide
  inHeap c member := by
    rcases List.mem_pair.mp member with rfl | rfl <;> exact ⟨by decide, by decide⟩
  used c member := by
    unfold Volume.IsFree
    rcases List.mem_pair.mp member with rfl | rfl <;> decide +kernel
  data c _ := copyVolume_data c

/-- Copying `f` to `h`. -/
def fullTask : CopyTask smallHome (copyVolume.volume smallHome) ['h'] where
  details := fullEntry.details {} ⟨100, 0⟩
  clusters := [3, 4]
  parent := 2
  directory := [2]
  slot := 6
  place := ⟨100, 6⟩
  nameHash := 36
  count := 1
  stores := fullEntry_stores
  descends := .here 2
  dir := copyVolume_directory
  apart := by decide
  accepted := by decide
  short := by decide
  spot := copyVolume_room

/-- Copying `g` to `h`. -/
def emptyTask : CopyTask smallHome (copyVolume.volume smallHome) ['h'] where
  details := emptyEntry.details {} ⟨100, 3⟩
  clusters := []
  parent := 2
  directory := [2]
  slot := 6
  place := ⟨100, 6⟩
  nameHash := 36
  count := 1
  stores := stores_nil copyVolume_fit.layout rfl rfl
  descends := .here 2
  dir := copyVolume_directory
  apart := by simp
  accepted := by decide
  short := by decide
  spot := copyVolume_room

theorem fullTask_canCopy : fullTask.CanCopy := by
  refine ⟨by decide, 5, Or.inl ⟨by decide, by decide, ?_, ?_⟩, by decide, by decide, by decide +kernel⟩
  · intro c low high
    unfold IsFree
    have two : fullTask.numClusters = 2 := by decide
    rw [two] at high
    obtain rfl | rfl : c = 5 ∨ c = 6 := by omega
    all_goals decide +kernel
  · intro a low high
    refine ⟨a, le_rfl, Nat.lt_add_of_pos_right (by decide), ?_⟩
    unfold IsFree
    have two : (copyVolume.volume smallHome).setup.nextSearchCluster = 2 := rfl
    rw [two] at low
    obtain rfl | rfl | rfl : a = 2 ∨ a = 3 ∨ a = 4 := by omega
    all_goals decide +kernel

theorem fullEntry_found :
    (copyVolume.volume smallHome).Leaf smallHome (some attrArchive) (pathToIter ['f']) 2
      (.ok (some fullTask.details)) := by
  have leaf : (copyVolume.volume smallHome).Leaf smallHome (some attrArchive) [['f']] 2 _ :=
    .last ['f'] copyVolume_directory
  have found : (copyVolume.volume smallHome).lookup [2] ['f'] (some attrArchive) = .ok (some fullTask.details) := by
    decide +kernel
  rw [found] at leaf
  exact leaf

theorem copies_iff_full : fullTask.Space ∧ ∃ fs' set ts, copy 200 ['f'] ['h'] copyVolume = (.ok (), fs') ∧
    fullTask.Copied (fs'.volume smallHome) set ts := by
  have clocked : copyVolume.setup.Clocked := fun _ none_ => by cases none_
  have space : fullTask.Space := by
    obtain ⟨_, first, fitting, _⟩ := fullTask_canCopy
    exact ⟨first, fitting.low le_rfl⟩
  exact ⟨space, (copies_iff (by decide) copyVolume_fit clocked (by decide) (by decide) fullTask fullEntry_found).mpr
    (fun _ => fullTask_canCopy) space⟩

/-- An empty file cannot be copied: the search for no clusters comes back with some. -/
theorem copies_not_empty : ¬ Copies smallHome 200 ['g'] copyVolume emptyTask := by
  have result : (copy 200 ['g'] ['h'] copyVolume).1 = .error (.error .diskFull) := by decide +kernel
  intro copies
  obtain ⟨fs', _, _, ran, _⟩ := copies ⟨2, by decide, by decide, fun c low high => absurd high (Nat.not_lt.mpr low)⟩
  rw [ran] at result
  cases result

end Files


end ExFatSlim
