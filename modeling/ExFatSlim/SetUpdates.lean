import ExFatSlim.Freeing
import ExFatSlim.Rewriting

namespace ExFatSlim

open DirectoryEntryChain (dirEntriesPerBlock)

namespace Volume

variable {size : Nat} {home : Nat → CacheKind} {v v' : Volume size} {c k : Nat} {set : EntrySet}

/-- The entry set is in the cluster `c` of a directory, from the entry with number `k` on. -/
structure SetAt (home : Nat → CacheKind) (v : Volume size) (c k : Nat) (set : EntrySet) : Prop where
  cell : v.DirCluster home c
  inside : k + set.raws.length ≤ v.clusterSlots
  entries : v.rawEntries c k set.raws.length = set.raws

namespace SetAt

variable (at_ : v.SetAt home c k set)

include at_

theorem entryAt {j : Nat} (within : j < set.raws.length) : v.entryAt (v.slotLocation c (k + j)) = set.raws[j] := by
  have same := congrArg (fun raws => raws[j]?) at_.entries
  simpa [rawEntries, within] using same

theorem numbered (j : Nat) (within : j < set.raws.length) :
    (v.dirEntries [c])[k + j]? = some (set.raws[j], v.slotLocation c (k + j)) := by
  have inside := at_.inside
  have alone : [c][0]? = some c := rfl
  have here := v.dirEntries_at (by omega) alone (show k + j < v.clusterSlots by omega)
  rw [Nat.zero_mul, Nat.zero_add] at here
  rw [here, dirSlot, at_.entryAt within]

/-- What is left of the set after its first two entries. -/
theorem rest {left : Nat} (count : set.raws.length = left + 2) :
    (((v.dirEntries [c]).drop (k + 2)).take left).map Prod.fst = set.names ++ set.extras := by
  have length : (set.names ++ set.extras).length = left := by
    have total := set.length_raws
    rw [set.secondaryCount] at total
    rw [List.length_append]
    omega
  refine List.ext_getElem? fun j => ?_
  rw [List.getElem?_map, List.getElem?_take]
  by_cases within : j < left
  · rw [if_pos within, List.getElem?_drop, Nat.add_assoc, Nat.add_comm 2 j, at_.numbered (j + 2) (by omega),
      Option.map_some]
    simp only [EntrySet.raws, List.getElem_cons_succ]
    rw [List.getElem?_eq_getElem (by omega)]
  · rw [if_neg within, Option.map_none, List.getElem?_eq_none (by omega)]

end SetAt

/-- The volume with another file entry, which gets the checksum of the set, and another stream extension. -/
def updateSet (v : Volume size) (c k : Nat) (set : EntrySet) (file stream : RawDirEntry) : Volume size :=
  (v.putEntry (v.slotLocation c (k + 1)) stream).putEntry (v.slotLocation c k)
    (file.patch 2 (leBytes 2 (setChecksum (file :: stream :: (set.names ++ set.extras)))))

end Volume

namespace Session

open Scan Volume

variable {size n : Nat} {home : Nat → CacheKind} {v : Volume size} {c k : Nat} {s : Session size n} {set : EntrySet}

section RewriteSet

variable (at_ : v.SetAt home c k set) {details : FileDetails} (location : details.location = v.slotLocation c k)
  (count : details.secondaryCount = (FileDirEntry.ofRaw set.fileDir).secondaryCount)

include at_ location count

/-- The reader that is placed on a set delivers its file entry, and the rest of the set is left. -/
theorem rewriteSet_first (sound : s.fs.Sound home) (shown : s.fs.volume home = v)
    (edit : Nat → RawDirEntry → ExFat (Session size n) Edit) :
    ∃ s₁ left, ∃ chain₁ : DirectoryEntryChain size, set.raws.length = left + 2 ∧
      Follows home v [c] (k + 1) ⟨s₁.fs, chain₁⟩ ∧ chain₁.numEntries = some (chain₁.cursor + (left + 1)) ∧
      rewriteSet details edit s = (do
        let (writer, fileDir) ← do
          match ← edit 0 set.fileDir with
          | .keep =>
            let writer ← (DirSetWriter.new (v.slotLocation c k)).addNoWrite size set.fileDir true
            rewriteEntries edit (left + 2) 1 chain₁ writer (some set.fileDir)
          | .put entry =>
            let writer ← (DirSetWriter.new (v.slotLocation c k)).add entry true
            rewriteEntries edit (left + 2) 1 chain₁ writer (some entry)
        match fileDir with
        | some fileDir => writer.finish fileDir
        | none => pure () : ExFat (Session size n) Unit) s₁ := by
  have cell := at_.cell
  have inside := at_.inside
  have total := set.length_raws
  have secondary := set.secondaryCount
  obtain ⟨left, more⟩ : ∃ left, (FileDirEntry.ofRaw set.fileDir).secondaryCount = left + 1 :=
    ⟨set.names.length + set.extras.length, by omega⟩
  obtain ⟨chain, opened, stands, limit⟩ :=
    newFromFileDetails_stands cell.room cell.layout cell.inHeap.1 (by omega : k < v.clusterSlots) sound
    shown location s
  have follows : Follows home v [c] k ⟨s.fs, chain⟩ :=
    ⟨stands.toShows, chain, .refl chain, 0, c, k, rfl, by rw [Nat.zero_mul, Nat.zero_add], by omega, stands.place⟩
  have free : Free (⟨s.fs, chain⟩ : Scan size n) := by
    rw [Free, limit]
    intro full
    have same : chain.cursor + (details.secondaryCount + 1) = chain.cursor := Option.some.inj full
    omega
  have isFile := at_.numbered 0 (by omega)
  obtain ⟨s₁, chain₁, run₁, follows₁, cursor₁, limit₁⟩ :=
    nextEntry_run cell.room cell.layout cell.walk follows free isFile
  refine ⟨s₁, left, chain₁, by omega, follows₁, ?_, ?_⟩
  · rw [limit₁, limit, cursor₁, count, more]
    congr 1
    omega
  · rw [rewriteSet, Exec.bind_of_ok (Exec.get_apply s), Exec.bind_of_ok opened, location, count, more, rewriteEntries]
    simp only [Exec.bind_assoc]
    rw [Exec.bind_of_ok run₁]
    dsimp only
    rw [Exec.bind_assoc]
    refine congrFun (congrArg _ (funext fun e => ?_)) s₁
    cases e <;>
    · simp only [Exec.bind_assoc]
      rfl

omit location count in
/-- The loop from the stream extension on, where the file entry of the set may have been put before. -/
theorem rewriteSet_rest {v₁ : Volume size} (edited : Edited home v v₁) {left : Nat}
    (total : set.raws.length = left + 2)
    (kept : ∀ m, m ≠ k → (v₁.dirEntries [c])[m]? = (v.dirEntries [c])[m]?)
    {edit : Nat → RawDirEntry → ExFat (Session size n) Edit} (file : RawDirEntry) {stream : RawDirEntry}
    (edits : edit 1 set.stream = pure (.put stream)) (keeps : ∀ k, 2 ≤ k → ∀ raw, edit k raw = pure .keep)
    {chain : DirectoryEntryChain size} (follows : Follows home v₁ [c] (k + 1) ⟨s.fs, chain⟩)
    (limit : chain.numEntries = some (chain.cursor + (left + 1))) :
    Session.Leads home (do
        let (writer, fileDir) ← rewriteEntries edit (left + 2) 1 chain
          ⟨v.slotLocation c k, v.slotLocation c (k + 1), DirSetWriter.calcChecksum 0 file true⟩ (some file)
        match fileDir with
        | some fileDir => writer.finish fileDir
        | none => pure ()) s (.ok ()) (v₁.updateSet c k set file stream) := by
  have inside := at_.inside
  have cell := at_.cell.edited edited
  have place : ∀ j, v₁.slotLocation c j = v.slotLocation c j := edited.slotLocation c
  have slots := edited.clusterSlots
  have isStream : (v₁.dirEntries [c])[k + 1]? = some (set.stream, v₁.slotLocation c (k + 1)) := by
    rw [kept _ (by omega), at_.numbered 1 (by omega), place]
    rfl
  have small : ∀ j < left, ((nextPlace size)^[j + 1] (v₁.slotLocation c (k + 1 + 1))).sectorId < 2 ^ 32 := by
    intro j below
    rw [iterate_nextPlace cell.room]
    exact cell.sector_bound (by omega)
  have within : k + 2 + left ≤ (v₁.dirEntries [c]).length := by
    rw [length_dirEntries, List.length_singleton, Nat.one_mul]
    omega
  have run := rewriteRest_leads cell.room cell.layout cell.walk file cell (by omega : k < v₁.clusterSlots) cell
    (by omega : k + 1 < v₁.clusterSlots) isStream edits keeps within small follows limit
  have rest : (((v₁.dirEntries [c]).drop (k + 2)).take left).map Prod.fst = set.names ++ set.extras := by
    rw [← at_.rest total]
    congr 2
    refine List.ext_getElem? fun j => ?_
    rw [List.getElem?_drop, List.getElem?_drop, kept _ (by omega)]
  rw [rest, place, place] at run
  rw [updateSet, place, place]
  exact run

omit at_ location count in
/-- Putting the file entry before makes no difference. -/
theorem updateSet_putEntry (w : Volume size) (same : ∀ j, w.slotLocation c j = v.slotLocation c j)
    (old file stream : RawDirEntry) :
    (w.putEntry (v.slotLocation c k) old).updateSet c k set file stream = w.updateSet c k set file stream := by
  have apart : v.slotLocation c (k + 1) ≠ v.slotLocation c k := by
    intro equal
    have number := slotLocation_inj equal
    omega
  rw [updateSet, updateSet, putEntry_slotLocation, putEntry_slotLocation, same, same, putEntry_comm _ apart,
    putEntry_putEntry]

/-- `flush` puts the file entry with the time of the change, and the stream extension of the handle. -/
theorem rewriteSet_flush (sound : s.fs.Sound home) (shown : s.fs.volume home = v) (clocked : v.setup.Clocked)
    (stored : StoredChain) :
    Session.Leads home (rewriteSet details (File.flushEdit details stored)) s (.ok ())
      (v.tick.updateSet c k set (flushedFile v.setup.now set.fileDir) (flushedStream details stored set.stream)) := by
  obtain ⟨s₁, left, chain₁, total, follows₁, limit₁, run⟩ := rewriteSet_first at_ location count sound shown
    (File.flushEdit details stored)
  have cell := at_.cell
  have inside := at_.inside
  have setup₁ : s₁.fs.setup = v.setup := congrArg Volume.setup follows₁.volume
  have timed := Session.leads_onFs (FileSystem.getCurrentTimestamp_leads follows₁.sound (setup₁ ▸ clocked))
  rw [setup₁, show s₁.fs.volume home = v from follows₁.volume] at timed
  obtain ⟨s₂, run₂, sound₂, shown₂⟩ := timed
  have shown₂ : s₂.fs.volume home = v.tick := shown₂
  have edit : File.flushEdit details stored 0 set.fileDir s₁ =
      (.ok (.put (flushedFile v.setup.now set.fileDir)), s₂) := by
    rw [File.flushEdit, if_pos rfl, Exec.bind_of_ok run₂]
    rfl
  have ticked : Edited home v v.tick := tick_edited v
  have here : home (v.slotLocation c k).sectorId = .data := cell.home_eq (by omega)
  have put := DirSetWriter.add_leads (k := k) (c := c) (w := .new (v.slotLocation c k)) sound₂
    (shown₂ ▸ (cell.edited ticked).stretch)
    (by rw [shown₂, ticked.clusterSlots]; omega) (by rw [shown₂, ticked.slotLocation]; rfl)
      (flushedFile v.setup.now set.fileDir) true
  rw [shown₂, ticked.slotLocation, ticked.slotLocation] at put
  obtain ⟨s₃, run₃, sound₃, shown₃⟩ := put
  have isFile := at_.numbered 0 (by omega)
  have follows₃ := follows₁.put cell.room cell.layout cell.walk isFile ticked (tick_entryAt v) sound₃ shown₃
  have edited : Edited home v (v.tick.putEntry (v.slotLocation c k) (flushedFile v.setup.now set.fileDir)) :=
    ticked.trans (putEntry_edited _ here _)
  have edits : (File.flushEdit details stored 1 set.stream : ExFat (Session size n) Edit) =
      pure (.put (flushedStream details stored set.stream)) := rfl
  have rest := rewriteSet_rest at_ edited total
    (fun m apart => cell.walk.dirEntries_put cell.room cell.layout isFile (tick_entryAt v) ticked here apart)
    (flushedFile v.setup.now set.fileDir) edits
    (fun k above raw => by rw [File.flushEdit, if_neg (by omega), if_neg (by omega)]) follows₃ limit₁
  rw [updateSet_putEntry v.tick (ticked.slotLocation c)] at rest
  obtain ⟨s₄, run₄, sound₄, shown₄⟩ := rest
  refine ⟨s₄, ?_, sound₄, shown₄⟩
  rw [run]
  dsimp only
  rw [Exec.bind_of_ok edit]
  exact (Exec.bind_of_ok run₃).trans run₄

/-- The stream extension as `truncate_file` leaves it. -/
def truncatedStream (details : FileDetails) (stream : RawDirEntry) : RawDirEntry :=
  StreamExtensionDirEntry.serialize { StreamExtensionDirEntry.ofRaw stream with
    dataLength := details.dataLength
    validDataLength := details.validDataLength
    firstCluster := details.firstCluster }

/-- `truncate_file` puts the stream extension, and the checksum into the file entry. -/
theorem rewriteSet_truncate (sound : s.fs.Sound home) (shown : s.fs.volume home = v) :
    Session.Leads home (rewriteSet details (truncateEdit details)) s (.ok ())
      (v.updateSet c k set set.fileDir (truncatedStream details set.stream)) := by
  obtain ⟨s₁, left, chain₁, total, follows₁, limit₁, run⟩ := rewriteSet_first at_ location count sound shown
    (truncateEdit details)
  have cell := at_.cell
  have inside := at_.inside
  have edit : truncateEdit details 0 set.fileDir s₁ = (.ok .keep, s₁) := rfl
  have advanced : ((DirSetWriter.new (v.slotLocation c k)).addNoWrite size set.fileDir true : ExFat
    (Session size n) DirSetWriter) s₁ = _ :=
    DirSetWriter.addNoWrite_run cell.stretch (by omega : k < v.clusterSlots) rfl set.fileDir true s₁
  have edits : (truncateEdit details 1 set.stream : ExFat (Session size n) Edit) =
      pure (.put (truncatedStream details set.stream)) := rfl
  have rest := rewriteSet_rest at_ (.refl v) total (fun m _ => rfl) set.fileDir edits
    (fun k above raw => by rw [truncateEdit, if_neg (by omega)]) follows₁ limit₁
  obtain ⟨s₂, run₂, sound₂, shown₂⟩ := rest
  refine ⟨s₂, ?_, sound₂, shown₂⟩
  rw [run]
  dsimp only
  rw [Exec.bind_of_ok edit]
  exact (Exec.bind_of_ok advanced).trans run₂

end RewriteSet

end Session

theorem FileDirEntry.fits_ofRaw (raw : RawDirEntry) : (FileDirEntry.ofRaw raw).Fits := by
  constructor <;> exact Block.le_lt _ _ _

theorem StreamExtensionDirEntry.fits_ofRaw (raw : RawDirEntry) : (StreamExtensionDirEntry.ofRaw raw).Fits := by
  constructor <;> exact Block.le_lt _ _ _

namespace EntrySet

/-- Entries that may take the places of the first two of a set. -/
structure Replaces (set : EntrySet) (file stream : RawDirEntry) : Prop where
  isFile : EntryType.ofByte (file.byte 0) = .fileAndDirectory
  isStream : EntryType.ofByte (stream.byte 0) = .streamExtension
  secondaryCount : (FileDirEntry.ofRaw file).secondaryCount = (FileDirEntry.ofRaw set.fileDir).secondaryCount
  nameLength : (StreamExtensionDirEntry.ofRaw stream).nameLength =
    (StreamExtensionDirEntry.ofRaw set.stream).nameLength

variable {set : EntrySet} {file stream : RawDirEntry}

/-- The set with them, and with the checksum that belongs to them. -/
def replace (set : EntrySet) (replaces : set.Replaces file stream) : EntrySet where
  fileDir := file.patch 2 (leBytes 2 (setChecksum (file :: stream :: (set.names ++ set.extras))))
  stream := stream
  names := set.names
  extras := set.extras
  name := set.name
  isFile := by
    rw [Block.byte_patch_outside _ (by simp)]
    exact replaces.isFile
  isStream := replaces.isStream
  areNames := set.areNames
  areExtras := set.areExtras
  secondaryCount := by
    rw [FileDirEntry.ofRaw_patch_checksum _ (NewEntry.setChecksum_lt _ _)]
    exact replaces.secondaryCount.trans set.secondaryCount
  checksum := by
    rw [FileDirEntry.ofRaw_patch_checksum _ (NewEntry.setChecksum_lt _ _), DirSetWriter.setChecksum_cons,
      DirSetWriter.setChecksum_cons,
      DirSetWriter.calcChecksum_patch _ _ _ (length_leBytes 2 _)]
  nameLength := replaces.nameLength.trans set.nameLength
  named := replaces.nameLength.symm ▸ set.named
  nameCount := replaces.nameLength.symm ▸ set.nameCount
  spelled := set.spelled

theorem length_replace (replaces : set.Replaces file stream) : (set.replace replaces).raws.length = set.raws.length :=
  rfl

theorem ofRaw_replace (replaces : set.Replaces file stream) : FileDirEntry.ofRaw (set.replace replaces).fileDir =
    { FileDirEntry.ofRaw file with setChecksum := setChecksum (file :: stream :: (set.names ++ set.extras)) } :=
  FileDirEntry.ofRaw_patch_checksum _ (NewEntry.setChecksum_lt _ _)

end EntrySet

namespace Volume

variable {size : Nat} {home : Nat → CacheKind} {v v' v'' : Volume size} {c k : Nat} {set set' : EntrySet}
  {stream : StreamExtensionDirEntry}

/-- The entry set has become another one with the given stream extension and the same names,
attributes and time of creation, and no entry outside of it has changed. -/
structure Updated (home : Nat → CacheKind) (v v' : Volume size) (c k : Nat) (set set' : EntrySet)
    (stream : StreamExtensionDirEntry) :
    Prop where
  at_ : v'.SetAt home c k set'
  checksum : (FileDirEntry.ofRaw set'.fileDir).setChecksum = setChecksum set'.raws
  stream : StreamExtensionDirEntry.ofRaw set'.stream = stream
  names : set'.names = set.names
  extras : set'.extras = set.extras
  name : set'.name = set.name
  secondaryCount : (FileDirEntry.ofRaw set'.fileDir).secondaryCount = (FileDirEntry.ofRaw set.fileDir).secondaryCount
  fileAttributes : (FileDirEntry.ofRaw set'.fileDir).fileAttributes = (FileDirEntry.ofRaw set.fileDir).fileAttributes
  created : (FileDirEntry.ofRaw set'.fileDir).created = (FileDirEntry.ofRaw set.fileDir).created
  others : ∀ place, home place.sectorId = .data → (∀ j < set.raws.length, place ≠ v.slotLocation c (k + j)) →
    v'.entryAt place = v.entryAt place

theorem Edited.stores (edited : Edited home v v') (layout : Layout size home v.setup) {details : FileDetails}
    {cs : List Nat}
    (stores : v.Stores home details cs) : v'.Stores home details cs where
  count := by
    rw [edited.details]
    exact stores.count
  valid := stores.valid
  first := stores.first
  contiguous := stores.contiguous
  linked flag := by
    have threads := stores.linked flag
    have same : ∀ c ∈ cs, v'.next c = v.next c :=
      fun c member => next_of_fatEntry (edited.fatEntry layout (stores.inHeap c member))
    refine ⟨threads.linked.of_same fun c member => same c (List.dropLast_subset _ member), fun c atEnd => ?_⟩
    rw [same c (List.mem_of_getLast? atEnd)]
    exact threads.ended c atEnd
  distinct := stores.distinct
  inHeap c member := by
    rw [InHeap, endCluster, edited.setup]
    exact stores.inHeap c member
  used c member := by
    rw [edited.isFree layout (stores.inHeap c member)]
    exact stores.used c member
  data c member := by
    simp only [IsData, dataSector, edited.details]
    exact stores.data c member

/-- Other directory entries leave the bitmap and the FAT as they are. -/
theorem Edited.clears (edited : Edited home v v') (linked : Bool) : Clears home linked [] v v' :=
  clears_nil linked (by rw [edited.setup]) (by rw [edited.setup]) edited.others

theorem entryAt_of_data (data : ∀ s, home s = .data → v'.sectors s = v.sectors s) {place : Location}
    (here : home place.sectorId = .data) :
    v'.entryAt place = v.entryAt place := by
  rw [entryAt, entryAt, data _ here]

/-- What is written outside of the data does not count. -/
theorem SetAt.of_data (at_ : v.SetAt home c k set) (setup : v'.setup = v.setup)
    (data : ∀ s, home s = .data → v'.sectors s = v.sectors s) : v'.SetAt home c k set := by
  have cell := at_.cell
  have inside := at_.inside
  have slots : v'.clusterSlots = v.clusterSlots := by rw [clusterSlots, clusterSlots, setup]
  refine ⟨cell.of_setup setup, by rw [slots]; exact inside, ?_⟩
  rw [← at_.entries, length_rawEntries]
  refine List.map_congr_left fun j member => ?_
  obtain ⟨i, small, rfl⟩ := List.mem_range'.mp member
  rw [slotLocation_of_setup setup]
  exact entryAt_of_data data (cell.home_eq (by omega))

theorem Updated.of_data (updated : Updated home v v' c k set set' stream) (setup : v''.setup = v'.setup)
    (data : ∀ s, home s = .data → v''.sectors s = v'.sectors s) : Updated home v v'' c k set set' stream :=
  { updated with
    at_ := updated.at_.of_data setup data
    others := fun place here outside => (entryAt_of_data data here).trans (updated.others place here outside) }

theorem SetAt.updateSet_edited (at_ : v.SetAt home c k set) (edited : Edited home v v') (file stream : RawDirEntry) :
    Edited home v (v'.updateSet c k set file stream) := by
  have inside := at_.inside
  have two : 2 ≤ set.raws.length := by simp [EntrySet.raws]
  have place : ∀ j, v'.slotLocation c j = v.slotLocation c j := edited.slotLocation c
  refine edited.trans ((putEntry_edited v' ?_ stream).trans (putEntry_edited _ ?_ _)) <;> rw [place]
  · exact at_.cell.home_eq (by omega)
  · exact at_.cell.home_eq (by omega)

/-- Putting the first two entries of a set updates it. -/
theorem SetAt.updated (at_ : v.SetAt home c k set) (edited : Edited home v v')
    (same : ∀ place, v'.entryAt place = v.entryAt place)
    {file stream : RawDirEntry} (replaces : set.Replaces file stream)
    (attributes : (FileDirEntry.ofRaw file).fileAttributes = (FileDirEntry.ofRaw set.fileDir).fileAttributes)
    (created : (FileDirEntry.ofRaw file).created = (FileDirEntry.ofRaw set.fileDir).created) :
    Updated home v (v'.updateSet c k set file stream) c k set (set.replace replaces)
      (StreamExtensionDirEntry.ofRaw stream) := by
  have inside := at_.inside
  have cell := at_.cell
  have place : ∀ j, v'.slotLocation c j = v.slotLocation c j := edited.slotLocation c
  have two : 2 ≤ set.raws.length := by simp [EntrySet.raws]
  have apart : ∀ i j, i ≠ j → v.slotLocation c i ≠ v.slotLocation c j :=
    fun i j other equal => other (slotLocation_inj equal)
  have after := at_.updateSet_edited edited file stream
  refine ⟨⟨cell.edited after, by rw [after.clusterSlots]; exact inside, ?_⟩, (set.replace replaces).checksum, rfl,
    rfl, rfl, rfl, ?_, ?_, ?_,
    fun spot _ outside => ?_⟩
  · rw [EntrySet.length_replace, ← at_.entries, length_rawEntries]
    refine List.ext_getElem (length_rawEntries _ _ _ _) fun j small small' => ?_
    have bound : j < set.raws.length := by simpa using small
    simp only [rawEntries, List.getElem_map, List.getElem_range', Nat.one_mul]
    rw [after.slotLocation, updateSet, place, place]
    rcases j with _ | _ | j
    · exact entryAt_putEntry_self _ (slot_fits cell.room v c k) _
    · rw [entryAt_putEntry_ne _ (apart (k + 1) k (by omega)),
        entryAt_putEntry_self _ (slot_fits cell.room v c (k + 1))]
      rfl
    · rw [entryAt_putEntry_ne _ (apart (k + (j + 2)) k (by omega)),
        entryAt_putEntry_ne _ (apart (k + (j + 2)) (k + 1) (by omega)), same, at_.entryAt bound]
      rfl
  · rw [EntrySet.ofRaw_replace]
    exact replaces.secondaryCount
  · rw [EntrySet.ofRaw_replace]
    exact attributes
  · rw [EntrySet.ofRaw_replace]
    exact created
  · have first : spot ≠ v.slotLocation c k := outside 0 (by omega)
    rw [updateSet, place, place, entryAt_putEntry_ne _ first, entryAt_putEntry_ne _ (outside 1 (by omega)), same]

end Volume

section Calls

open Volume Session

variable {size n : Nat} {home : Nat → CacheKind} {fs : FileSystem size n} {c k : Nat} {set : EntrySet}

theorem ofRaw_flushedFile {now : EncodedTimestamp} (clock : now.Fits) (file : RawDirEntry) :
    FileDirEntry.ofRaw (flushedFile now file) = { FileDirEntry.ofRaw file with
      lastModifiedTimestamp := now.packed
      lastModified10msIncrement := now.increment10ms
      lastModifiedUtcOffset := now.utcOffset
      lastAccessedTimestamp := now.packed
      lastAccessedUtcOffset := now.utcOffset } := by
  have fits := FileDirEntry.fits_ofRaw file
  exact FileDirEntry.ofRaw_serialize ⟨fits.secondaryCount, fits.setChecksum, fits.createTimestamp, clock.packed,
    clock.packed,
    fits.create10msIncrement, clock.increment10ms, fits.createUtcOffset, clock.utcOffset, clock.utcOffset⟩

theorem ofRaw_flushedStream {details : FileDetails} {stored : StoredChain} (length : details.dataLength < 2 ^ 64)
    (valid : details.validDataLength < 2 ^ 64) (first : File.firstClusterOf stored < 2 ^ 32) (stream : RawDirEntry) :
    StreamExtensionDirEntry.ofRaw (flushedStream details stored stream) = { StreamExtensionDirEntry.ofRaw stream with
      firstCluster := File.firstClusterOf stored
      dataLength := details.dataLength
      validDataLength := details.validDataLength
      generalSecondaryFlags := details.flags } := by
  have fits := StreamExtensionDirEntry.fits_ofRaw stream
  exact StreamExtensionDirEntry.ofRaw_serialize ⟨fits.nameLength, fits.nameHash, valid, first, length⟩

theorem ofRaw_truncatedStream {details : FileDetails} (length : details.dataLength < 2 ^ 64)
    (valid : details.validDataLength < 2 ^ 64)
    (first : details.firstCluster < 2 ^ 32) (stream : RawDirEntry) :
    StreamExtensionDirEntry.ofRaw (truncatedStream details stream) = { StreamExtensionDirEntry.ofRaw stream with
      dataLength := details.dataLength
      validDataLength := details.validDataLength
      firstCluster := details.firstCluster } := by
  have fits := StreamExtensionDirEntry.fits_ofRaw stream
  exact StreamExtensionDirEntry.ofRaw_serialize ⟨fits.nameLength, fits.nameHash, valid, first, length⟩

/-- `flush` of a handle whose entry is dirty. -/
theorem File.flush_updates (sound : fs.Sound home) (clocked : fs.setup.Clocked)
    (at_ : (fs.volume home).SetAt home c k set) {file : File}
    (dirty : file.touched.isDirEntryDirty = true)
    (location : file.details.location = (fs.volume home).slotLocation c k)
    (count : file.details.secondaryCount = (FileDirEntry.ofRaw set.fileDir).secondaryCount)
    (length : file.details.dataLength < 2 ^ 64)
    (valid : file.details.validDataLength < 2 ^ 64) (first : firstClusterOf file.chain < 2 ^ 32) :
    ∃ s' set', flush ⟨fs, file⟩ = (.ok (), s') ∧ s'.fs.Sound home ∧
      Updated home (fs.volume home) (s'.fs.volume home) c k set set' { StreamExtensionDirEntry.ofRaw set.stream with
        firstCluster := firstClusterOf file.chain
        dataLength := file.details.dataLength
        validDataLength := file.details.validDataLength
        generalSecondaryFlags := file.details.flags } := by
  have rewritten := rewriteSet_flush (s := ⟨fs, file.touched⟩) at_ location count sound rfl clocked file.chain
  obtain ⟨s₁, run₁, sound₁, shown₁⟩ := FileSession.leads_onSession (s := ⟨fs, file⟩) rewritten
  obtain ⟨fs', run₂, served, _⟩ := Session.flush_spec (s := ⟨s₁.fs, s₁.file.touched⟩) sound₁
  have fileDir := ofRaw_flushedFile clocked.now_fits set.fileDir
  have stream := ofRaw_flushedStream length valid first set.stream
  have replaces : set.Replaces (flushedFile fs.setup.now set.fileDir)
      (flushedStream file.details file.chain set.stream) := by
    refine ⟨?_, ?_, by rw [fileDir], by rw [stream]⟩
    · rw [flushedFile, FileDirEntry.byte_serialize]
      rfl
    · rw [flushedStream, StreamExtensionDirEntry.byte_serialize]
      rfl
  have updated := at_.updated (tick_edited _) (tick_entryAt _) replaces (by rw [fileDir]) (by rw [fileDir]; rfl)
  have shown : fs'.volume home = (fs.volume home).tick.updateSet c k set (flushedFile fs.setup.now set.fileDir)
      (flushedStream file.details file.chain set.stream) := served.volume.trans (Prod.mk.inj shown₁).1
  refine ⟨⟨fs', { s₁.file with touched := .new }⟩, set.replace replaces, ?_, served.sound, ?_⟩
  · rw [flush, Exec.bind_of_ok (Exec.get_apply _)]
    dsimp only
    rw [if_pos dirty, Exec.bind_of_ok run₁, FileSession.onSession, Exec.zoom_apply, run₂]
  · rw [stream] at updated
    dsimp only
    rw [shown]
    exact updated

/-- The details as `truncate_file` leaves them. -/
def FileDetails.truncated (details : FileDetails) : FileDetails :=
  { details with dataLength := 0, validDataLength := 0, firstCluster := noClusterId }

theorem FileSystem.truncateFile_run {fs fs' : FileSystem size n} {details : FileDetails} {stored : StoredChain}
    {s₁ s₂ s₃ : Session size n}
    (chain : Session.onFs (getStoredChain details) ⟨fs, .new⟩ = (.ok stored, s₁))
    (rewritten : rewriteSet details.truncated (truncateEdit details.truncated) s₁ = (.ok (), s₂))
    (freed : Allocator.free stored s₂ = (.ok (), s₃)) (flushed : Session.flush s₃ = (.ok (), ⟨fs', .new⟩)) :
    truncateFile details 0 fs = (.ok details.truncated, fs') := by
  have same : ({ details with
      dataLength := 0
      validDataLength := min details.validDataLength 0
      firstCluster := noClusterId } : FileDetails) = details.truncated := by rw [Nat.min_zero]; rfl
  have rest : (do
      rewriteSet details.truncated (truncateEdit details.truncated)
      Allocator.free stored
      Session.flush
      pure details.truncated : ExFat (Session size n) FileDetails) s₁ = (.ok details.truncated, ⟨fs', .new⟩) := by
    rw [Exec.bind_of_ok rewritten, Exec.bind_of_ok freed, Exec.bind_of_ok flushed]
    rfl
  rw [← same] at rest
  rw [← same]
  unfold truncateFile withTouched
  rw [Exec.bind_of_ok (Exec.assert_of rfl _), Exec.bind_of_ok chain]
  exact congrArg (fun p => (p.1, p.2.fs)) rest

/-- `truncate_file` of a file whose clusters are in order: they are freed, and its entry set is
that of an empty file. -/
theorem FileSystem.truncateFile_updates (sound : fs.Sound home) (at_ : (fs.volume home).SetAt home c k set)
    {details : FileDetails}
    {cs : List Nat} (location : details.location = (fs.volume home).slotLocation c k)
    (count : details.secondaryCount = (FileDirEntry.ofRaw set.fileDir).secondaryCount)
    (stores : (fs.volume home).Stores home details cs) :
    ∃ fs' set', truncateFile details 0 fs = (.ok details.truncated, fs') ∧ fs'.Sound home ∧
      Updated home (fs.volume home) (fs'.volume home) c k set set' { StreamExtensionDirEntry.ofRaw set.stream with
        dataLength := 0
        validDataLength := 0
        firstCluster := noClusterId } ∧
      Clears home (!details.flags.noFatChain) cs (fs.volume home) (fs'.volume home) := by
  have layout := at_.cell.layout
  have old : FileSystem.Leads home (getStoredChain details) fs (.ok (storedChain details cs)) (fs.volume home) :=
    getStoredChain_leads sound layout stores
  obtain ⟨s₁, run₁, sound₁, shown₁⟩ := Session.leads_onFs (s := ⟨fs, .new⟩) old
  have shown₁ : s₁.fs.volume home = fs.volume home := shown₁
  have location' : details.truncated.location = (fs.volume home).slotLocation c k := location
  have count' : details.truncated.secondaryCount = (FileDirEntry.ofRaw set.fileDir).secondaryCount := count
  obtain ⟨s₂, run₂, sound₂, shown₂⟩ := rewriteSet_truncate at_ location' count' sound₁ shown₁
  have shown₂ : s₂.fs.volume home =
    (fs.volume home).updateSet c k set set.fileDir (truncatedStream details.truncated set.stream) := shown₂
  -- the clusters are freed when the set is written
  have edited : Edited home (fs.volume home) (s₂.fs.volume home) := by
    rw [shown₂]
    exact at_.updateSet_edited (.refl _) _ _
  obtain ⟨v, ⟨s₃, run₃, sound₃, shown₃⟩, freed, clears⟩ :=
    Allocator.free_leads sound₂ (edited.layout layout) (edited.stores layout stores)
  have shown₃ : s₃.fs.volume home = v := shown₃
  obtain ⟨fs', run₄, served, _⟩ := Session.flush_spec sound₃
  have stream : StreamExtensionDirEntry.ofRaw (truncatedStream details.truncated set.stream) =
    { StreamExtensionDirEntry.ofRaw set.stream with
      dataLength := 0
      validDataLength := 0
      firstCluster := noClusterId } :=
    ofRaw_truncatedStream (Nat.pow_pos (by decide)) (Nat.pow_pos (by decide)) (Nat.pow_pos (by decide)) set.stream
  have replaces : set.Replaces set.fileDir (truncatedStream details.truncated set.stream) := by
    refine ⟨set.isFile, ?_, rfl, by rw [stream]⟩
    rw [truncatedStream, StreamExtensionDirEntry.byte_serialize]
    rfl
  have updated := at_.updated (.refl _) (fun _ => rfl) replaces rfl rfl
  rw [← shown₂, stream] at updated
  have shown : fs'.volume home = v := served.volume.trans shown₃
  refine ⟨fs', set.replace replaces, truncateFile_run run₁ run₂ run₃ run₄, served.sound, ?_, ?_⟩
  · rw [shown]
    exact updated.of_data freed.setup freed.data
  · rw [shown]
    exact (edited.clears _).trans clears

/-- An entry set that lies in one cluster is still well formed after `flush` of a handle whose
entry is dirty, and after `truncate_file`: the names, the attributes and the time of creation
are the same and the checksum is right. -/
theorem Volume.SetAt.stays_well_formed (at_ : (fs.volume home).SetAt home c k set) (sound : fs.Sound home) :
    (∀ file : File, file.touched.isDirEntryDirty = true → fs.setup.Clocked →
      file.details.location = (fs.volume home).slotLocation c k →
      file.details.secondaryCount = (FileDirEntry.ofRaw set.fileDir).secondaryCount →
        file.details.dataLength < 2 ^ 64 →
      file.details.validDataLength < 2 ^ 64 → File.firstClusterOf file.chain < 2 ^ 32 →
      ∃ s' set', File.flush ⟨fs, file⟩ = (.ok (), s') ∧
        Updated home (fs.volume home) (s'.fs.volume home) c k set set' { StreamExtensionDirEntry.ofRaw set.stream with
          firstCluster := File.firstClusterOf file.chain
          dataLength := file.details.dataLength
          validDataLength := file.details.validDataLength
          generalSecondaryFlags := file.details.flags }) ∧
    ∀ (details : FileDetails) (cs : List Nat), details.location = (fs.volume home).slotLocation c k →
      details.secondaryCount = (FileDirEntry.ofRaw set.fileDir).secondaryCount →
        (fs.volume home).Stores home details cs →
      ∃ fs' set', FileSystem.truncateFile details 0 fs = (.ok details.truncated, fs') ∧
        Updated home (fs.volume home) (fs'.volume home) c k set set' { StreamExtensionDirEntry.ofRaw set.stream with
          firstCluster := noClusterId
          dataLength := 0
          validDataLength := 0 } := by
  refine ⟨fun file dirty clocked location count length valid first => ?_, fun details cs location count stores => ?_⟩
  · obtain ⟨s', set', run, _, updated⟩ := File.flush_updates sound clocked at_ dirty location count length valid first
    exact ⟨s', set', run, updated⟩
  · obtain ⟨fs', set', run, _, updated, _⟩ := FileSystem.truncateFile_updates sound at_ location count stores
    exact ⟨fs', set', run, updated⟩

end Calls

section Stored

open Volume File
open FileSystem (entrySector)

/-- A file `f` in the clusters 3 and 4. -/
def storedEntry : NewEntry := ⟨['f'], 3, attrArchive, Session.allocatedFlags, 1024, 1024⟩

def storedSet : EntrySet :=
  storedEntry.toSet 35 {} ⟨by decide, by decide, by decide, by decide⟩ (by decide) (by decide) noClock_fits

/-- A volume with its entry set in the middle of a sector. -/
def storedVolume : FileSystem 512 1 :=
  { smallVolume with
    dev := ⟨fun s =>
      if s = 10 then fun i => if i.val = 0 then 7 else 0
      else if s = 100 then entrySector (List.replicate 4 (fileNameSerialize []) ++ storedSet.raws)
      else fun _ => 0, [], []⟩ }

theorem storedVolume_data (c : Nat) : (storedVolume.volume smallHome).IsData smallHome c := by
  intro i inside
  have one : i < 1 := inside
  have sector : (storedVolume.volume smallHome).dataSector c i = 100 + (c - 2) * 1 + i := rfl
  rw [sector, smallHome, if_neg (by omega), if_neg (by omega)]

theorem storedSet_at : (storedVolume.volume smallHome).SetAt smallHome 2 4 storedSet where
  cell := ⟨by decide, smallVolume_layout.of_same rfl rfl rfl rfl, ⟨by decide, by decide⟩,
    storedVolume_data 2, by decide⟩
  inside := by decide +kernel
  entries := by decide +kernel

theorem storedSet_stores : (storedVolume.volume smallHome).Stores smallHome (storedSet.details ⟨100, 4⟩) [3, 4] where
  count := by decide +kernel
  valid := by decide +kernel
  first c head := (Option.some.inj head).symm.trans (by decide +kernel)
  contiguous _ := by decide +kernel
  linked flag := by
    have contiguous : (storedSet.details ⟨100, 4⟩).flags.noFatChain = true := by decide +kernel
    rw [contiguous] at flag
    cases flag
  distinct := by decide
  inHeap c member := by
    rcases List.mem_pair.mp member with rfl | rfl <;> exact ⟨by decide, by decide⟩
  used c member := by
    unfold Volume.IsFree
    rcases List.mem_pair.mp member with rfl | rfl <;> decide +kernel
  data c _ := storedVolume_data c

/-- A handle of it that has written to its first cluster only. -/
def storedFile : File :=
  { FileSystem.opened (storedSet.details ⟨100, 4⟩) [3, 4] 512 { write := true } with
    details := { storedSet.details ⟨100, 4⟩ with dataLength := 700, validDataLength := 600 }
    touched := { FileDirty.new with isDirEntryDirty := true } }

theorem Volume.SetAt.stays_well_formed_stored :
    (∃ s' set', File.flush ⟨storedVolume, storedFile⟩ = (.ok (), s') ∧
      Updated smallHome (storedVolume.volume smallHome) (s'.fs.volume smallHome) 2 4 storedSet set'
        { StreamExtensionDirEntry.ofRaw storedSet.stream with
          firstCluster := 3, dataLength := 700, validDataLength := 600
          generalSecondaryFlags := Session.allocatedFlags }) ∧
    ∃ fs' set', FileSystem.truncateFile (storedSet.details ⟨100, 4⟩) 0 storedVolume =
        (.ok (storedSet.details ⟨100, 4⟩).truncated, fs') ∧
      Updated smallHome (storedVolume.volume smallHome) (fs'.volume smallHome) 2 4 storedSet set'
        { StreamExtensionDirEntry.ofRaw storedSet.stream with
          firstCluster := noClusterId, dataLength := 0, validDataLength := 0 } := by
  obtain ⟨flushed, truncated⟩ :=
    storedSet_at.stays_well_formed (FileSystem.sound_of_new _ rfl fun k => by cases k <;> rfl)
  refine ⟨?_, truncated _ [3, 4] rfl rfl storedSet_stores⟩
  have first : firstClusterOf storedFile.chain = 3 := by decide +kernel
  have flags : storedFile.details.flags = Session.allocatedFlags := by decide +kernel
  have run := flushed storedFile rfl (fun _ none_ => by cases none_) rfl rfl (by decide) (by decide)
    (by rw [first]; decide)
  rw [first, flags] at run
  exact run

end Stored

end ExFatSlim
