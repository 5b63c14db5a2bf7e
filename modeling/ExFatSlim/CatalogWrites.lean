import ExFatSlim.CatalogChanges

namespace ExFatSlim

section Close

open Volume Session

variable {size n : Nat} {home : Nat → CacheKind} {fs : FileSystem size n} {c k : Nat} {set : EntrySet} {file : File}

theorem replaces_flushed {now : EncodedTimestamp} (clock : now.Fits) {details : FileDetails} {stored : StoredChain}
    (length : details.dataLength < 2 ^ 64) (valid : details.validDataLength < 2 ^ 64)
    (first : File.firstClusterOf stored < 2 ^ 32) :
    set.Replaces (flushedFile now set.fileDir) (flushedStream details stored set.stream) := by
  refine ⟨?_, ?_, by rw [ofRaw_flushedFile clock], by rw [ofRaw_flushedStream length valid first]⟩
  · rw [flushedFile, FileDirEntry.byte_serialize]
    rfl
  · rw [flushedStream, StreamExtensionDirEntry.byte_serialize]
    rfl

/-- Closing a handle whose entry is dirty rewrites the first two entries of its set. -/
theorem File.close_dirty (sound : fs.Sound home) (clocked : fs.setup.Clocked)
    (at_ : (fs.volume home).SetAt home c k set)
    (dirty : file.touched.isDirEntryDirty = true)
    (location : file.details.location = (fs.volume home).slotLocation c k)
    (count : file.details.secondaryCount = (FileDirEntry.ofRaw set.fileDir).secondaryCount) :
    ∃ s', close ⟨fs, file⟩ = (.ok (), s') ∧ s'.fs.Sound home ∧ s'.fs.volume home =
      (fs.volume home).tick.updateSet c k set
      (flushedFile fs.setup.now set.fileDir) (flushedStream file.details file.chain set.stream) := by
  have rewritten := rewriteSet_flush (s := ⟨fs, file.touched⟩) at_ location count sound rfl clocked file.chain
  obtain ⟨s₁, run₁, sound₁, shown₁⟩ := FileSession.leads_onSession (s := ⟨fs, file⟩) rewritten
  obtain ⟨fs', run₂, served, _⟩ := Session.flush_spec (s := ⟨s₁.fs, s₁.file.touched⟩) sound₁
  refine ⟨⟨fs', { s₁.file with touched := .new }⟩, ?_, served.sound, served.volume.trans (Prod.mk.inj shown₁).1⟩
  rw [close, flush, Exec.bind_of_ok (Exec.get_apply _)]
  dsimp only
  rw [if_pos dirty, Exec.bind_of_ok run₁, FileSession.onSession, Exec.zoom_apply, run₂]

end Close

namespace Volume

variable {size : Nat} {home : Nat → CacheKind} {v v' : Volume size} {aside : Set Nat} {cat : Catalog} {c i : Nat}
  {set : EntrySet}

section Vacant

variable {details : FileDetails} (shows : v.Catalogued home aside cat) (has : cat.Has c i set)
  (vacant : v.Vacant c i set details)

include shows has vacant

theorem Vacant.clusters : cat.clusters c i = [] := by
  have count := (shows.file has vacant.file).stores.count
  have pos : 0 < v.setup.details.clusterLength :=
    shows.layout.clusterLength ▸ Nat.mul_pos shows.layout.pos shows.layout.sectorsPerCluster
  have none_ : (cat.clusters c i).length = FileSystem.divCeil set.dataLength v.setup.details.clusterLength := count
  rw [vacant.empty, FileSystem.divCeil, Nat.zero_add, Nat.div_eq_of_lt (by omega)] at none_
  exact List.length_eq_zero_iff.mp none_

/-- An entry that stays as it is. -/
theorem Vacant.same : Revises home ∅ v v cat c i (cat.list c) (some set) [] where
  changes := (Changes.refl v).mono (Set.empty_subset _)
  folder := shows.folder c has.1
  sets x := by
    constructor
    · intro member
      by_cases here : x.1 = i
      · obtain ⟨j, other⟩ := x
        cases here
        exact .inr ⟨rfl, congrArg some (Catalogued.has_inj has ⟨has.1, member⟩)⟩
      · exact .inl ⟨member, here⟩
    · rintro (⟨member, _⟩ | ⟨rfl, same⟩)
      · exact member
      · cases same
        exact has.2
  plain := shows.plain c has.1
  fresh e member := by cases member
  freed e member := by
    rw [vacant.clusters shows has] at member
    cases member
  gone none_ := by cases none_
  file := by
    rintro _ ⟨⟩ kind
    rw [← vacant.clusters shows has]
    exact shows.file has kind
  inner := by
    rintro _ ⟨⟩ kind
    cases vacant.file.symm.trans kind

end Vacant

/-- The clusters that a file has no longer are free. -/
theorem Revises.count {list : DirList} {new : Option EntrySet} (revises : Revises home ∅ v v' cat c i list new [])
    (shows : v.Catalogued home aside cat) (here : c ∈ cat.folders) :
    v'.freeClusters.card = v.freeClusters.card + (cat.clusters c i).length := by
  have changes := revises.changes
  have used : ∀ e ∈ cat.clusters c i, ¬ v.IsFree e := fun e member => by
    obtain ⟨set, stores⟩ := shows.stores member
    exact stores.used e member
  have freed : ∀ e ∈ cat.clusters c i, v'.IsFree e := fun e member =>
    (revises.freed e member (List.not_mem_nil)).elim id fun gone => absurd gone (Set.notMem_empty e)
  have distinct : (cat.clusters c i).Nodup := by
    by_cases none_ : cat.clusters c i = []
    · rw [none_]
      exact .nil
    · obtain ⟨e, member⟩ := List.exists_mem_of_ne_nil _ none_
      obtain ⟨set, stores⟩ := shows.stores member
      exact stores.distinct
  have whole : v'.freeClusters = v.freeClusters ∪ (cat.clusters c i).toFinset := by
    ext e
    rw [Finset.mem_union, mem_freeClusters, mem_freeClusters, List.mem_toFinset, changes.inHeap]
    by_cases member : e ∈ cat.clusters c i
    · exact iff_of_true ⟨shows.clusters_inHeap member, freed e member⟩ (.inr member)
    · rw [or_iff_left member]
      refine and_congr_right fun inHeap => ?_
      by_cases same : e = c
      · subst same
        exact iff_of_false revises.folder.used (shows.folder e here).used
      · refine changes.free e inHeap ?_
        rintro (rfl | old | new)
        · exact same rfl
        · exact member old
        · cases new
  have apart : Disjoint v.freeClusters (cat.clusters c i).toFinset := by
    rw [Finset.disjoint_left]
    intro e free member
    exact used e (List.mem_toFinset.mp member) (mem_freeClusters.mp free).2
  rw [whole, Finset.card_union_of_disjoint apart, List.toFinset_card_of_nodup distinct]

end Volume

theorem Volume.Owns.firstCluster_lt {size : Nat} {home : Nat → CacheKind} {v : Volume size} {flag : Bool}
    {chain : StoredChain} {cs : List Nat}
    (owns : v.Owns home flag chain cs) (layout : Layout size home v.setup) : File.firstClusterOf chain < 2 ^ 32 := by
  have small : ∀ c ∈ cs, c < 2 ^ 32 := by
    intro c member
    have ids := layout.ids
    have high : c < 2 + v.setup.bitmap.clusterCount := (owns.inHeap c member).2
    exact (by omega : c ≤ Fat.clusterLen).trans_lt (by decide)
  have lists := owns.lists
  cases chain with
  | empty => exact (by decide : noClusterId < 2 ^ 32)
  | contiguous first count =>
    obtain ⟨pos, rfl⟩ := lists
    exact small first (List.mem_range'_1.mpr ⟨le_rfl, Nat.lt_add_of_pos_right pos⟩)
  | fat first last count => exact small first (List.mem_of_head? lists.1)

namespace FileSession

open Volume Session

variable {size n : Nat} {home : Nat → CacheKind} {s s' : FileSession size n} {aside : Set Nat} {cat : Catalog}
  {c i : Nat} {set : EntrySet}
  {contents : List UInt8} {cs : List Nat}

/-- Closing the handle that has filled an empty file gives the file the contents. -/
theorem Fills.closes (fills : Fills home contents cs s s') (catalogued : (s.fs.volume home).Catalogued home aside cat)
    (has : cat.Has c i set)
    (vacant : (s.fs.volume home).Vacant c i set s.file.details) (addressable : contents.length < 2 ^ s.fs.usizeBits) :
    ∃ t d set', File.close s' = (.ok (), t) ∧ t.fs.Sound home ∧
      Revises home ∅ (s.fs.volume home) (t.fs.volume home) cat c i d (some set') cs ∧ set'.name = set.name ∧
        set'.isFolder = false ∧
      set'.content (t.fs.volume home) cs = contents := by
  obtain ⟨holds, changes, fresh, count, bytes, details, dirty⟩ := fills
  have unowned : ∀ e ∈ cs, cat.Unowned e := fun e member => catalogued.unowned (fresh e member).2
  have outside : ∀ e ∈ cs, e ≠ c := by
    rintro e member rfl
    exact (unowned e member).1 has.1
  have folder := (catalogued.folder c has.1).kept changes fun member => outside c member rfl
  have at_ := folder.setAt has.2
  have clocked := changes.clocked catalogued.clocked
  have location : s'.file.details.location = (s'.fs.volume home).slotLocation c i := by
    rw [details, changes.slotLocation]
    exact vacant.location
  have secondary : s'.file.details.secondaryCount = (FileDirEntry.ofRaw set.fileDir).secondaryCount := by
    rw [details]
    exact vacant.secondaryCount
  have length : s'.file.details.dataLength = contents.length := by rw [details]
  have valid : s'.file.details.validDataLength = contents.length := by rw [details]
  obtain ⟨t, closes, sound, shown⟩ := File.close_dirty holds.sound clocked at_ dirty location secondary
  have clusterLength : s'.fs.fs.clusterLength = s.fs.fs.clusterLength :=
    congrArg FileSystemDetails.clusterLength changes.details
  have fits : contents.length < 2 ^ 64 := by
    have capacity := holds.capacity
    have room := le_divCeil_mul (holds.clusterLength.2.1) contents.length
    rw [clusterLength] at capacity room
    rw [← count] at room
    omega
  have first := holds.owns.firstCluster_lt holds.layout
  have clock : s'.fs.setup.now.Fits := clocked.now_fits
  have replaces : set.Replaces (flushedFile s'.fs.setup.now set.fileDir)
    (flushedStream s'.file.details s'.file.chain set.stream) :=
    replaces_flushed clock (length ▸ fits) (valid ▸ fits) first
  have stream := ofRaw_flushedStream (length ▸ fits) (valid ▸ fits) first set.stream
  have file := ofRaw_flushedFile clock set.fileDir
  have before : Changes home {e | e ∈ cs} (s.fs.volume home) (s'.fs.volume home).tick :=
    (changes.trans (changes_tick _)).mono (Set.union_empty _).le
  have ticked := (folder.kept (changes_tick _) (Set.notMem_empty c)).setAt has.2
  have updates :=
    (changes_tick (s'.fs.volume home)).trans (ticked.updateSet_changes (flushedFile s'.fs.setup.now set.fileDir)
    (flushedStream s'.file.details s'.file.chain set.stream))
  have edited := at_.updateSet_edited (tick_edited (s'.fs.volume home)) (flushedFile s'.fs.setup.now set.fileDir)
    (flushedStream s'.file.details s'.file.chain set.stream)
  rw [← shown] at edited updates
  have flags : ((set.replace replaces).details ((s.fs.volume home).slotLocation c i)).flags = s'.file.details.flags :=
    congrArg StreamExtensionDirEntry.generalSecondaryFlags stream
  have dataLength : (set.replace replaces).dataLength = contents.length :=
    (congrArg StreamExtensionDirEntry.dataLength stream).trans length
  have validLength : (set.replace replaces).validDataLength = contents.length :=
    (congrArg StreamExtensionDirEntry.validDataLength stream).trans valid
  have stores : (t.fs.volume home).Stores home
      ((set.replace replaces).details ((s.fs.volume home).slotLocation c i)) cs := by
    refine edited.stores holds.layout (Owns.stores (flags ▸ holds.owns) ?_ ?_ ?_)
    · have same : ((set.replace replaces).details ((s.fs.volume home).slotLocation c i)).dataLength =
        contents.length := dataLength
      rw [same]
      exact count.trans (congrArg _ clusterLength.symm)
    · exact (validLength.trans dataLength.symm).le
    · exact congrArg StreamExtensionDirEntry.firstCluster stream
  have freed : Freed home (cat.clusters c i)
    ((s'.fs.volume home).tick.updateSet c i set (flushedFile s'.fs.setup.now set.fileDir)
      (flushedStream s'.file.details s'.file.chain set.stream)) (t.fs.volume home) := by
    rw [vacant.clusters catalogued has, shown]
    exact .refl _
  obtain ⟨d, revises⟩ :=
    catalogued.rewrites has vacant.file replaces (by rw [stream]) (by rw [file]) (by rw [file]; rfl)
    before unowned freed stores (dataLength.symm ▸ addressable)
  refine ⟨t, d, set.replace replaces, closes, sound, revises, rfl, ?_, ?_⟩
  · rw [EntrySet.isFolder, EntrySet.attributes_replace replaces (by rw [file])]
    exact vacant.file
  · refine List.ext_getElem (by simp [EntrySet.content, dataLength]) fun j _ inside => ?_
    have room := le_divCeil_mul (holds.clusterLength.2.1) contents.length
    rw [clusterLength, ← count, ← clusterLength] at room
    have kept : (t.fs.volume home).fileByte cs j = (s'.fs.volume home).fileByte cs j :=
      updates.fileByte holds.layout holds.owns.inHeap holds.owns.data
        (fun e member new => outside e member (by simpa using new))
        (inside.trans_le room)
    simp only [EntrySet.content, List.getElem_map, List.getElem_range]
    rw [validLength, if_pos inside, kept, bytes j inside]

end FileSession

namespace FileSystem.Shows

open Volume FileSession

variable {size n : Nat} {home : Nat → CacheKind} {fs : FileSystem size n} {aside : Set Nat} {cat : Catalog}
  {c i fuel : Nat} {set : EntrySet}
  {details : FileDetails}

/-- Opening an empty file for writing, writing to it and closing it gives the file the contents. -/
theorem fill_leads (shows : Shows home aside fuel fs cat) (has : cat.Has c i set)
    (vacant : (fs.volume home).Vacant c i set details)
    (options : OpenOptions) (enabled : options.write = true) (start : options.append = false) {contents : List UInt8}
    (addressable : contents.length < 2 ^ fs.usizeBits)
    (space : FileSystem.divCeil contents.length fs.fs.clusterLength ≤ (fs.volume home).freeClusters.card)
    (smooth : ¬ File.Trips size fs.fs.clusterLength 0 contents.length) :
    ∃ v' d set' cs, FileSystem.Leads home (openWith details options >>= fun file => withFile file do
        File.write contents
        File.close) fs (.ok ()) v' ∧
      Revises home ∅ (fs.volume home) v' cat c i d (some set') cs ∧ set'.name = set.name ∧ set'.isFolder = false ∧
      (∀ e ∈ cs, (fs.volume home).IsFree e) ∧ set'.content v' cs = contents := by
  have catalogued := shows.catalogued
  have layout := catalogued.layout
  have stores : (fs.volume home).Stores home details [] := stores_nil layout vacant.dataLength vacant.validDataLength
  obtain ⟨fs₁, opens, sound₁, shown₁⟩ := openWith_leads shows.sound layout stores options
  have fit₁ := shows.fit.of_volume sound₁ shown₁
  have stores₁ : (fs₁.volume home).Stores home details [] := shown₁ ▸ stores
  have setup₁ : fs₁.setup = fs.setup := congrArg Volume.setup shown₁
  have length₁ : fs₁.fs.clusterLength = fs.fs.clusterLength :=
    congrArg (fun u : Setup => u.details.clusterLength) setup₁
  have bits₁ : fs₁.usizeBits = fs.usizeBits := congrArg Setup.usizeBits setup₁
  rw [← length₁] at opens space smooth
  rw [← bits₁] at addressable
  by_cases some_ : contents = []
  · subst some_
    obtain ⟨s', closes, served⟩ :=
      File.close_clean (s := ⟨fs₁, opened details [] fs₁.fs.clusterLength options⟩) sound₁ rfl
    refine ⟨_, _, set, [], .of_run ?_ served.sound (served.volume.trans shown₁), vacant.same catalogued has,
      rfl, vacant.file,
      (fun e member => by cases member), ?_⟩
    · rw [Exec.bind_of_ok opens, withFile]
      exact congrArg (fun p => (p.1, p.2.fs)) closes
    · rw [EntrySet.content, vacant.empty]
      rfl
  · have kept := fit₁.kept stores₁ options
    have writable : Writable home [] ⟨fs₁, opened details [] fs₁.fs.clusterLength options⟩ := {
      toHolds := ⟨kept.sound, kept.layout, kept.search, kept.room, kept.owns⟩
      enabled := enabled
      clusters := stores₁.count
      position := (opened_positioned_iff fit₁.layout stores₁ options).mpr (.inl start)
      cursor := by
        rw [opened, start]
        exact Nat.zero_le _
      valid := stores₁.valid }
    obtain ⟨s₂, cs, writes, fills⟩ := writable.fills some_ addressable (by rw [shown₁]; exact space) smooth
    obtain ⟨t, d, set', closes, sound, revises, name, files, content⟩ :=
      fills.closes (by rw [shown₁]; exact catalogued) has
      (by rw [shown₁]; exact vacant) addressable
    rw [shown₁] at revises
    refine ⟨_, d, set', cs, .of_run ?_ sound rfl, revises, name, files, fun e member => ?_, content⟩
    swap
    · rw [← shown₁]
      exact (fills.fresh e member).2
    rw [Exec.bind_of_ok opens, withFile, Exec.bind_of_ok writes, closes]

theorem of_becomes {v v' : Volume size} {cat cat' : Catalog} {fs : FileSystem size n}
    (becomes : Becomes home aside v v' cat cat')
    (sound : fs.Sound home) (shown : fs.volume home = v') (enough : v.mostSlots < fuel) :
    Shows home aside fuel fs cat' where
  sound := sound
  catalogued := shown ▸ becomes.catalogued
  enough := by
    rw [shown, mostSlots, clusterSlots, becomes.setup]
    exact enough

/-- The options of `write`. -/
def writing : OpenOptions := { create := true, truncate := true, write := true }

/-- `write` to the file that its `open` has found or created. -/
theorem write_run {fs₁ : FileSystem size n} {path : List Char} {contents : List UInt8} (mounted : fs.isMounted = true)
    (opens : openDetails fuel path writing fs = (.ok details, fs₁)) : write fuel path contents fs =
      (openWith details writing >>= fun file => withFile file do
        File.write contents
        File.close) fs₁ := by
  have opened : «open» fuel path writing fs = openWith details writing fs₁ := by
    rw [«open», Exec.bind_of_ok (mount_of_mounted mounted), Exec.bind_of_ok opens]
    rfl
  have unfolded : write fuel path contents fs = («open» fuel path writing >>= fun file => withFile file do
      File.write contents
      File.close) fs := Exec.bind_of_ok (mount_of_mounted mounted)
  rw [unfolded, Exec.bind_apply, Exec.bind_apply, opened]

section Write

variable {path : List Char} {contents : List UInt8} (addressable : contents.length < 2 ^ fs.usizeBits)
  (smooth : ¬ File.Trips size fs.fs.clusterLength 0 contents.length) (accepts : fs.setup.upcaseTable.Accepts path)

include addressable smooth accepts

/-- Writing to a file that is there replaces its contents. -/
theorem write_found (shows : Shows home aside fuel fs cat) (reaches : (fs.volume home).Reaches cat path c i set)
    (file : set.isFolder = false)
    (space : FileSystem.divCeil contents.length fs.fs.clusterLength ≤ (fs.volume home).freeClusters.card +
      (cat.clusters c i).length) :
    ∃ v' cat', FileSystem.Leads home (write fuel path contents) fs (.ok ()) v' ∧
      Becomes home aside (fs.volume home) v' cat cat' ∧
      v'.paths cat' = Function.update ((fs.volume home).paths cat) (fs.setup.upcaseTable.keys path)
        (some (.file contents)) := by
  have has := reaches.has
  obtain ⟨fs₁, found, sound₁, shown₁⟩ :=
    shows.find_found accepts (some attrArchive) reaches ((shows.archive has).mpr file)
  have catalogued := shows.catalogued
  have shows₁ := shows.served sound₁ shown₁
  obtain ⟨v₂, list, set', ⟨fs₂, truncates, sound₂, shown₂⟩, revises, name, vacant⟩ :=
    shows₁.truncateFile_leads has file
  rw [shown₁] at truncates revises vacant
  have named : ∀ set'' ∈ some set', set''.name = set.name := by
    rintro _ ⟨⟩
    exact name
  have becomes := reaches.becomes catalogued revises named file fun e member => by cases member
  have reaches₂ := reaches.revised catalogued revises named rfl
  have paths := reaches.paths catalogued revises named file (by rintro _ ⟨⟩; exact vacant.file)
  have shows₂ := of_becomes becomes sound₂ shown₂ shows.enough
  obtain ⟨length₂, bits₂⟩ := becomes.shown shown₂
  have fits : FileSystem.divCeil contents.length fs₂.fs.clusterLength ≤ (fs₂.volume home).freeClusters.card := by
    rw [length₂, shown₂, revises.count catalogued has.1]
    exact space
  obtain ⟨v₃, list', set₃, cs, run, revises', name', files, fresh, content⟩ :=
    shows₂.fill_leads reaches₂.has (shown₂ ▸ vacant) writing rfl rfl
    (bits₂ ▸ addressable) fits (length₂ ▸ smooth)
  rw [shown₂] at revises' fresh
  have named' : ∀ set'' ∈ some set₃, set''.name = set'.name := by
    rintro _ ⟨⟩
    exact name'
  have paths' := reaches₂.paths becomes.catalogued revises' named' vacant.file (by rintro _ ⟨⟩; exact files)
  have table : v₂.setup.upcaseTable = fs.setup.upcaseTable := revises.changes.upcaseTable
  rw [table, Option.map_some, content, paths] at paths'
  refine ⟨v₃, _, ?_, becomes.trans (reaches₂.becomes becomes.catalogued revises' named' vacant.file fresh),
    paths'.trans (Function.update_idem ..)⟩
  obtain ⟨fs₃, run, sound₃, shown₃⟩ := run
  refine .of_run ?_ sound₃ shown₃
  rw [write_run shows.mounted ((openDetails_found found).trans truncates), run]

end Write

end FileSystem.Shows

end ExFatSlim
