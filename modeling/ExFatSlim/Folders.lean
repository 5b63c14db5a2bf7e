import ExFatSlim.Creating
import ExFatSlim.DirectorySets
import ExFatSlim.Removal

namespace ExFatSlim

namespace Volume

variable {size : Nat} {home : Nat → CacheKind} {v v' v'' : Volume size} {c i : Nat} {cs : List Nat} {T U : Set Nat}

/-- Nothing has changed but the clusters of `T`, the clock and where the next search starts. -/
structure Changes (home : Nat → CacheKind) (T : Set Nat) (v v' : Volume size) : Prop where
  setup : v'.setup = { v.setup with nextSearchCluster := v'.setup.nextSearchCluster, clock := v'.setup.clock }
  search : 2 ≤ v.setup.nextSearchCluster → 2 ≤ v'.setup.nextSearchCluster
  free : ∀ c, v.InHeap c → c ∉ T → (v'.IsFree c ↔ v.IsFree c)
  entries : ∀ c, v.InHeap c → c ∉ T → v'.fatEntry c = v.fatEntry c
  data : ∀ c, v.IsData home c → v.InHeap c → c ∉ T → ∀ i < v.setup.details.sectorsPerCluster,
    v'.sectors (v.dataSector c i) = v.sectors (v.dataSector c i)

namespace Changes

theorem refl (v : Volume size) : Changes home ∅ v v where
  setup := rfl
  search := id
  free _ _ _ := Iff.rfl
  entries _ _ _ := rfl
  data _ _ _ _ _ _ := rfl

theorem mono (changes : Changes home T v v') (more : T ⊆ U) : Changes home U v v' where
  setup := changes.setup
  search := changes.search
  free c inHeap outside := changes.free c inHeap fun member => outside (more member)
  entries c inHeap outside := changes.entries c inHeap fun member => outside (more member)
  data c data inHeap outside := changes.data c data inHeap fun member => outside (more member)

section Setup

variable (changes : Changes home T v v')

include changes

theorem details : v'.setup.details = v.setup.details := by rw [changes.setup]

theorem inHeap : v'.InHeap c ↔ v.InHeap c := by rw [InHeap, InHeap, endCluster, endCluster, changes.setup]

theorem dataSector (c i : Nat) : v'.dataSector c i = v.dataSector c i := by
  rw [Volume.dataSector, Volume.dataSector, changes.details]

theorem isData : v'.IsData home c ↔ v.IsData home c := by simp only [IsData, Volume.dataSector, changes.details]

theorem layout (layout : Layout size home v.setup) : Layout size home v'.setup := by
  rw [changes.setup]
  exact layout.of_same rfl rfl rfl rfl

theorem clocked (clocked : v.setup.Clocked) : v'.setup.Clocked := by
  rw [changes.setup]
  exact clocked

theorem upcaseTable : v'.setup.upcaseTable = v.setup.upcaseTable := by rw [changes.setup]

theorem slotLocation (c k : Nat) : v'.slotLocation c k = v.slotLocation c k := by
  rw [Volume.slotLocation, Volume.slotLocation, changes.dataSector]

theorem clusterSlots : v'.clusterSlots = v.clusterSlots := by
  rw [Volume.clusterSlots, Volume.clusterSlots, changes.details]

theorem mostSlots : v'.mostSlots = v.mostSlots := by
  rw [Volume.mostSlots, Volume.mostSlots, changes.clusterSlots, changes.setup]

theorem next (inHeap : v.InHeap c) (outside : c ∉ T) : v'.next c = v.next c :=
  next_of_fatEntry (changes.entries c inHeap outside)

theorem dirCluster (cell : v.DirCluster home c) : v'.DirCluster home c where
  room := cell.room
  layout := changes.layout cell.layout
  inHeap := changes.inHeap.mpr cell.inHeap
  data := changes.isData.mpr cell.data
  past := by rw [changes.dataSector, changes.details]; exact cell.past

end Setup

theorem trans (first : Changes home T v v') (second : Changes home U v' v'') : Changes home (T ∪ U) v v'' where
  setup := by rw [second.setup, first.setup]
  search low := second.search (first.search low)
  free c inHeap outside := (second.free c (first.inHeap.mpr inHeap) fun member => outside (.inr member)).trans
    (first.free c inHeap fun member => outside (.inl member))
  entries c inHeap outside := (second.entries c (first.inHeap.mpr inHeap) fun member => outside (.inr member)).trans
    (first.entries c inHeap fun member => outside (.inl member))
  data c data inHeap outside i inside := by
    have later :=
      second.data c (first.isData.mpr data) (first.inHeap.mpr inHeap) (fun member => outside (.inr member)) i
      (by rw [first.details]; exact inside)
    rw [first.dataSector] at later
    exact later.trans (first.data c data inHeap (fun member => outside (.inl member)) i inside)

/-- A file outside the changed clusters has the same clusters. -/
theorem stores (changes : Changes home T v v') {details : FileDetails} (stores : v.Stores home details cs)
    (outside : ∀ c ∈ cs, c ∉ T) :
    v'.Stores home details cs where
  count := by rw [changes.details]; exact stores.count
  valid := stores.valid
  first := stores.first
  contiguous := stores.contiguous
  linked flag := by
    have threads := stores.linked flag
    have same : ∀ c ∈ cs, v'.next c = v.next c :=
      fun c member => changes.next (stores.inHeap c member) (outside c member)
    refine ⟨threads.linked.of_same fun c member => same c (List.dropLast_subset _ member), fun c atEnd => ?_⟩
    rw [same c (List.mem_of_getLast? atEnd)]
    exact threads.ended c atEnd
  distinct := stores.distinct
  inHeap c member := changes.inHeap.mpr (stores.inHeap c member)
  used c member free := stores.used c member ((changes.free c (stores.inHeap c member) (outside c member)).mp free)
  data c member := changes.isData.mpr (stores.data c member)

/-- A file outside the changed clusters has the same bytes. -/
theorem fileByte (changes : Changes home T v v') (layout : Layout size home v.setup) (inHeap : ∀ c ∈ cs, v.InHeap c)
    (data : ∀ c ∈ cs, v.IsData home c) (outside : ∀ c ∈ cs, c ∉ T) {i : Nat}
    (inside : i < cs.length * v.setup.details.clusterLength) :
    v'.fileByte cs i = v.fileByte cs i := by
  have within : i / size < cs.length * v.setup.details.sectorsPerCluster := by
    rw [Nat.div_lt_iff_lt_mul layout.pos, Nat.mul_assoc, Nat.mul_comm _ size, ← layout.clusterLength]
    exact inside
  obtain ⟨index, offset⟩ := fileSector_cluster layout within
  have member := List.getElem_mem index
  have sector : v'.fileSector cs (i / size) = v.fileSector cs (i / size) := by
    rw [fileSector, fileSector, changes.dataSector, changes.details]
  rw [Volume.fileByte, Volume.fileByte, sector, fileSector, List.getD_eq_getElem _ _ index,
    changes.data _ (data _ member) (inHeap _ member) (outside _ member) _ offset]

end Changes

/-- What is written to the data sectors of clusters changes these. -/
theorem Edited.changes (edited : Edited home v v') (layout : Layout size home v.setup) (low : ∀ c ∈ T, 2 ≤ c)
    (data : ∀ s, home s = .data → (∀ c ∈ T, ∀ i < v.setup.details.sectorsPerCluster, s ≠ v.dataSector c i) →
      v'.sectors s = v.sectors s) :
    Changes home T v v' where
  setup := by rw [edited.setup]
  search low := by rw [edited.setup]; exact low
  free c inHeap _ := edited.isFree layout inHeap
  entries c inHeap _ := edited.fatEntry layout inHeap
  data c here inHeap outside i inside := by
    refine data _ (here i inside) fun d member j inside' same => ?_
    obtain ⟨rfl, _⟩ := dataSector_inj inHeap.1 (low d member) inside inside' same
    exact outside member

theorem changes_tick (v : Volume size) : Changes home ∅ v v.tick where
  setup := by rw [tick_setup]
  search low := by rw [tick_setup]; exact low
  free c _ _ := by rw [IsFree, IsFree, isFreeCluster, isFreeCluster, tick_sectors, tick_setup]
  entries c _ _ := by rw [fatEntry, fatEntry, fatSector, fatSector, tick_sectors, tick_setup]
  data c _ _ _ i _ := by rw [tick_sectors]

theorem Freed.changes (freed : Freed home cs v v') : Changes home {c | c ∈ cs} v v' where
  setup := by rw [freed.setup]
  search low := by rw [freed.setup]; exact low
  free c inHeap outside := (freed.free c inHeap).trans (or_iff_left outside)
  entries c inHeap outside := freed.entries c inHeap outside
  data c data _ _ i inside := freed.data _ (data i inside)

theorem Extended.changes {added : List Nat} (extended : Extended home cs added v v') :
    Changes home {c | c ∈ cs ++ added} v v' where
  setup := by rw [extended.setup]
  search := extended.search
  free c inHeap outside :=
    (extended.free c inHeap).trans (and_iff_left fun member => outside (List.mem_append_right _ member))
  entries c inHeap outside := extended.entries c inHeap outside
  data c data _ _ i inside := extended.data _ (data i inside)

theorem DirCluster.putEntry_changes (cell : v.DirCluster home c) {k : Nat} (inside : k < v.clusterSlots)
    (raw : RawDirEntry) :
    Changes home {c} v (v.putEntry (v.slotLocation c k) raw) := by
  refine (putEntry_edited v (cell.home_eq inside) raw).changes cell.layout (fun d member => member ▸ cell.inHeap.1)
    fun s _ apart => ?_
  exact store_sectors_ne v (apart c rfl _ (cell.sector_lt inside)) _

theorem DirCluster.putEntries_changes (raws : List RawDirEntry) : ∀ {k : Nat} {v : Volume size}, v.DirCluster home c →
    k + raws.length ≤ v.clusterSlots → Changes home {c} v (putEntries c k raws v) := by
  induction raws with
  | nil => exact fun _ _ => (Changes.refl _).mono (Set.empty_subset _)
  | cons raw raws ih =>
    intro k v cell inside
    rw [List.length_cons] at inside
    have here := cell.putEntry_changes (k := k) (by omega) raw
    have rest := ih (k := k + 1) (here.dirCluster cell) (by rw [here.clusterSlots]; omega)
    exact (here.trans rest).mono (Set.union_self _).le

theorem SetAt.updateSet_changes {k : Nat} {set : EntrySet} (at_ : v.SetAt home c k set) (file stream : RawDirEntry) :
    Changes home {c} v (v.updateSet c k set file stream) := by
  have inside := at_.inside
  have filled : 2 ≤ set.raws.length := by simp [EntrySet.raws]
  have first := at_.cell.putEntry_changes (k := k + 1) (by omega) stream
  have second := (first.dirCluster at_.cell).putEntry_changes (k := k) (by rw [first.clusterSlots]; omega)
    (file.patch 2 (leBytes 2 (setChecksum (file :: stream :: (set.names ++ set.extras)))))
  exact (first.trans second).mono (Set.union_self _).le

/-- The entries of a cluster where some of them were replaced. -/
theorem rawEntries_edit {raws : List RawDirEntry} {slots : Nat} (inside : i + raws.length ≤ slots)
    (here : v'.rawEntries c i raws.length = raws)
    (others : ∀ j < slots, j < i ∨ i + raws.length ≤ j → v'.entryAt (v'.slotLocation c j) =
      v.entryAt (v.slotLocation c j)) :
    v'.rawEntries c 0 slots = (v.rawEntries c 0 slots).take i ++
      (raws ++ (v.rawEntries c 0 slots).drop (i + raws.length)) := by
  apply List.ext_getElem
  · simp
    omega
  intro j bound _
  rw [length_rawEntries] at bound
  have new : (v'.rawEntries c 0 slots)[j]? = some (v'.entryAt (v'.slotLocation c j)) := by
    simp [rawEntries, bound]
  have old : (v.rawEntries c 0 slots)[j]? = some (v.entryAt (v.slotLocation c j)) := by
    simp [rawEntries, bound]
  apply Option.some.inj
  rw [← List.getElem?_eq_getElem, ← List.getElem?_eq_getElem, new]
  by_cases before : j < i
  · rw [List.getElem?_append_left (by simp; omega), List.getElem?_take_of_lt before, old,
      others j bound (.inl before)]
  · rw [List.getElem?_append_right (by simp; omega), List.length_take, length_rawEntries, Nat.min_eq_left (by omega)]
    by_cases within : j - i < raws.length
    · have at_ : (v'.rawEntries c i raws.length)[j - i]? = some (v'.entryAt (v'.slotLocation c (i + (j - i)))) := by
        simp [rawEntries, within]
      rw [List.getElem?_append_left within, ← here, at_, show i + (j - i) = j by omega]
    · rw [List.getElem?_append_right (by omega), List.getElem?_drop, show i + raws.length + (j - i - raws.length) =
        j by omega, old,
        others j bound (.inr (by omega))]

/-- A directory of one cluster with the entries of `d`, whose sets have the right hashes. -/
structure Folder (home : Nat → CacheKind) (v : Volume size) (c : Nat) (d : DirList) : Prop where
  cell : v.DirCluster home c
  used : ¬ v.IsFree c
  last : v.next c = none
  content : v.rawEntries c 0 v.clusterSlots = d.raws
  hashed : ∀ x ∈ d.sets, x.2.Hashed v.setup.upcaseTable

namespace Folder

variable {d d' : DirList} {set : EntrySet} {name : List Char} {attributes : Option FileAttributes}

section Reads

variable (folder : v.Folder home c d)

include folder

theorem length : d.raws.length = v.clusterSlots := by rw [← folder.content, length_rawEntries]

theorem threads : v.Threads [c] where
  linked := List.isChain_singleton c
  ended a last := by
    cases last
    exact folder.last

theorem directory : v.Directory home c [c] where
  head := rfl
  threads := folder.threads
  distinct := List.nodup_singleton c
  inHeap := List.forall_mem_singleton.mpr folder.cell.inHeap
  used := List.forall_mem_singleton.mpr folder.used
  data := List.forall_mem_singleton.mpr folder.cell.data

theorem dirEntries : v.dirEntries [c] = placed (v.slotLocation c) 0 d.raws := by
  rw [← folder.content, placed_rawEntries, dirEntries_cons, dirSlots_eq]
  exact List.append_nil _

/-- Looking up an accepted name finds the first set that has it. -/
theorem lookup {hashed : Nat × Nat} (accepted : hashedName v.setup.upcaseTable name = .ok hashed) :
    v.lookup [c] name attributes =
    .ok ((d.sets.find? fun x => decide (x.2.Named v.setup.upcaseTable name attributes)).map fun x =>
      x.2.details (v.slotLocation c x.1)) := by
  have parts : hashed.1 = exFatHash v.setup.upcaseTable (encodeUtf16 name) ∧ hashed.2 = (encodeUtf16 name).length :=
    (hashedName_ok accepted).2
  obtain ⟨hash, count⟩ := parts
  have finds : d.sets.find?
    (fun x => x.2.passes (exactNameFilter name hashed.1 attributes hashed.2) v.setup.upcaseTable) =
      d.sets.find? fun x => decide (x.2.Named v.setup.upcaseTable name attributes) := by
    refine List.find?_congr fun x member => ?_
    rw [hash, count, Bool.eq_iff_iff, decide_eq_true_iff]
    exact (folder.hashed x member).passes_iff
  rw [Volume.lookup, accepted, folder.dirEntries, ← finds, ← DirList.search]
  rfl

theorem setAt (member : (i, set) ∈ d.sets) : v.SetAt home c i set where
  cell := folder.cell
  inside := by rw [← folder.length]; exact DirList.within member
  entries := by
    have inside := DirList.within member
    rw [folder.length] at inside
    rw [← rawEntries_part v c inside, folder.content]
    exact DirList.here member

/-- A folder stays as it is where nothing changes. -/
theorem kept (changes : Changes home T v v') (outside : c ∉ T) : v'.Folder home c d where
  cell := changes.dirCluster folder.cell
  used free := folder.used ((changes.free c folder.cell.inHeap outside).mp free)
  last := (changes.next folder.cell.inHeap outside).trans folder.last
  content := by
    rw [← folder.content, changes.clusterSlots]
    refine List.map_congr_left fun k member => ?_
    have inside : k < v.clusterSlots := by simpa using member
    rw [changes.slotLocation, entryAt, entryAt, Volume.slotLocation,
      changes.data c folder.cell.data folder.cell.inHeap outside _ (folder.cell.sector_lt inside)]
  hashed := by rw [changes.upcaseTable]; exact folder.hashed

/-- A folder where entries were replaced. -/
theorem edit {raws : List RawDirEntry} {new : Option EntrySet} (edits : d.Edits d' i raws new)
    (hashed : ∀ set ∈ new, set.Hashed v.setup.upcaseTable) (edited : Edited home v v')
    (here : v'.rawEntries c i raws.length = raws)
    (others : ∀ j < v.clusterSlots, j < i ∨ i + raws.length ≤ j → v'.entryAt (v.slotLocation c j) =
      v.entryAt (v.slotLocation c j)) :
    v'.Folder home c d' where
  cell := DirCluster.edited edited folder.cell
  used free := folder.used ((edited.isFree folder.cell.layout folder.cell.inHeap).mp free)
  last := (next_of_fatEntry (edited.fatEntry folder.cell.layout folder.cell.inHeap)).trans folder.last
  content := by
    have inside := edits.inside
    rw [folder.length] at inside
    rw [edited.clusterSlots, edits.raws, ← folder.content]
    refine rawEntries_edit inside here fun j bound outside => ?_
    rw [edited.slotLocation]
    exact others j bound outside
  hashed x member := by
    have table : v'.setup.upcaseTable = v.setup.upcaseTable := by rw [edited.setup]
    rw [table]
    rcases (edits.sets x).mp member with ⟨old, _⟩ | ⟨_, new⟩
    · exact folder.hashed x old
    · exact hashed x.2 new

theorem putEntries {raws : List RawDirEntry} {new : Option EntrySet} (edits : d.Edits d' i raws new)
    (hashed : ∀ set ∈ new, set.Hashed v.setup.upcaseTable) : (Volume.putEntries c i raws v).Folder home c d' := by
  have inside := edits.inside
  rw [folder.length] at inside
  have edited : Edited home v (Volume.putEntries c i raws v) :=
    putEntries_edited raws fun j within => folder.cell.home_eq (by omega)
  refine folder.edit edits hashed edited folder.cell.rawEntries_putEntries fun j bound outside => ?_
  refine entryAt_putEntries_ne raws fun l within same => ?_
  have number := slotLocation_inj same
  omega

/-- A folder where a set was rewritten. -/
theorem updateSet {file stream : RawDirEntry} (member : (i, set) ∈ d.sets) (replaces : set.Replaces file stream)
    (edits : d.Edits d' i (set.replace replaces).raws (some (set.replace replaces)))
    (hashed : (StreamExtensionDirEntry.ofRaw stream).nameHash = (StreamExtensionDirEntry.ofRaw set.stream).nameHash)
    (attributes : (FileDirEntry.ofRaw file).fileAttributes = (FileDirEntry.ofRaw set.fileDir).fileAttributes)
    (created : (FileDirEntry.ofRaw file).created = (FileDirEntry.ofRaw set.fileDir).created) :
    (v.updateSet c i set file stream).Folder home c d' := by
  have at_ := folder.setAt member
  have updated := at_.updated (Edited.refl v) (fun _ => rfl) replaces attributes created
  have length := EntrySet.length_replace replaces
  refine folder.edit edits ?_ (at_.updateSet_edited (Edited.refl v) file stream) updated.at_.entries
    fun j bound outside => ?_
  · rintro _ ⟨⟩
    exact hashed.trans (folder.hashed _ member)
  · refine updated.others _ (folder.cell.home_eq bound) fun l within same => ?_
    have number := slotLocation_inj same
    omega

end Reads

end Folder

end Volume

end ExFatSlim
