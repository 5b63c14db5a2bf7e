import ExFatSlim.CatalogCreation
import ExFatSlim.LongestRuns

namespace ExFatSlim

namespace Volume

variable {size : Nat} {home : Nat → CacheKind} {v v' : Volume size} {c d : Nat}

/-- The volume with zeros in the sectors `s .. s + rounds`. -/
def zeroed (v : Volume size) (s rounds : Nat) : Volume size :=
  { v with sectors := fun t => if s ≤ t ∧ t < s + rounds then fun _ => 0 else v.sectors t }

theorem zeroed_zero (v : Volume size) (s : Nat) : v.zeroed s 0 = v := by
  have none_ : ∀ t, ¬ (s ≤ t ∧ t < s + 0) := by omega
  rw [zeroed]
  simp only [none_, if_false]

theorem zeroed_succ (v : Volume size) (s rounds : Nat) :
    (v.store s fun _ => 0).zeroed (s + 1) rounds = v.zeroed s (rounds + 1) := by
  rw [zeroed, zeroed, store]
  congr 1
  funext t
  by_cases same : t = s
  · subst same
    rw [if_neg (by omega), if_pos (by omega)]
    exact Function.update_self ..
  · refine if_congr (by omega) rfl ?_
    exact Function.update_of_ne same ..

end Volume

namespace Session

open Volume

variable {size n : Nat} {home : Nat → CacheKind} {d : Nat}

theorem zeroSectors_leads (rounds : Nat) : ∀ {sector : Nat} {s : Session size n}, s.fs.Sound home →
    (∀ i < rounds, home (sector + i) = .data) →
    Session.Leads home (zeroSectors rounds sector) s (.ok ()) ((s.fs.volume home).zeroed sector rounds) := by
  induction rounds with
  | zero =>
    intro sector s sound _
    rw [zeroed_zero]
    exact .of_run rfl sound rfl
  | succ rounds ih =>
    intro sector s sound data
    rw [zeroSectors]
    refine (leads_readMut sound (data 0 (Nat.succ_pos rounds)) _).bind fun s₁ sound₁ shown₁ => ?_
    refine (leads_insert sound₁ _).bind fun s₂ sound₂ shown₂ => ?_
    have later : ∀ i < rounds, home (sector + 1 + i) = .data := fun i inside => by
      rw [Nat.add_assoc, Nat.add_comm 1]
      exact data (i + 1) (by omega)
    have rest := ih sound₂ later
    rw [shown₂, shown₁, zeroed_succ] at rest
    exact rest

/-- `zero_cluster` of a cluster of the heap. -/
theorem zeroCluster_leads {s : Session size n} (sound : s.fs.Sound home)
    (cell : (s.fs.volume home).DirCluster home d) :
    Session.Leads home (zeroCluster d) s (.ok ())
      ((s.fs.volume home).zeroed ((s.fs.volume home).dataSector d 0)
        (s.fs.volume home).setup.details.sectorsPerCluster) := by
  have past := cell.past
  rw [zeroCluster]
  refine .get (.step (File.getHeapSectorId_run cell.layout cell.inHeap s) ?_)
  refine .step (u32_of_lt past s) ?_
  exact zeroSectors_leads _ sound fun i inside => cell.data i inside

end Session

namespace Volume

variable {size : Nat} {home : Nat → CacheKind} {v : Volume size} {d : Nat}

/-- A search for one cluster finds it where any is free. -/
theorem exists_fitting (free : ∃ c, v.InHeap c ∧ v.IsFree c) : ∃ first, v.Fitting 1 first := by
  have least {low : Nat} (some_ : ∃ c, low ≤ c ∧ c < v.endCluster ∧ v.IsFree c) :
      ∃ first, FirstFit v.IsFree low v.endCluster 1 first := by
    classical
    obtain ⟨above, below, free⟩ := Nat.find_spec some_
    refine ⟨Nat.find some_, above, below, fun c from_ to_ => ?_, fun a from_ before =>
      ⟨a, le_rfl, Nat.lt_succ_self a, fun free => ?_⟩⟩
    · rwa [show c = Nat.find some_ by omega]
    · exact Nat.find_min some_ before ⟨from_, by omega, free⟩
  by_cases ahead : ∃ c, v.setup.nextSearchCluster ≤ c ∧ c < v.endCluster ∧ v.IsFree c
  · obtain ⟨first, fit⟩ := least ahead
    exact ⟨first, .inl fit⟩
  · obtain ⟨c, inHeap, free⟩ := free
    obtain ⟨first, fit⟩ := least ⟨c, inHeap.1, inHeap.2, free⟩
    exact ⟨first, .inr ⟨fun c above below free => ahead ⟨c, above, below, free⟩, fit⟩⟩

/-- The volume with cluster `d` taken for a folder without entries. -/
def newFolder (v : Volume size) (d : Nat) : Volume size :=
  ((v.searchAt (d + 1)).mark ⟨d, 1⟩ true).zeroed (v.dataSector d 0) v.setup.details.sectorsPerCluster

theorem newFolder_setup : (v.newFolder d).setup = (v.searchAt (d + 1)).setup := mark_setup ..

section NewFolder

variable (cell : v.DirCluster home d)

include cell

theorem newFolder_taken : Taken home ⟨d, 1⟩ v (v.newFolder d) := by
  have inHeap := cell.inHeap
  have taken : Taken home ⟨d, 1⟩ v ((v.searchAt (d + 1)).mark ⟨d, 1⟩ true) :=
    taken_of_mark cell.layout (.refl _) inHeap.1 inHeap.2
  refine taken.rewritten cell.layout ⟨rfl, fun s foreign => if_neg ?_⟩
  rintro ⟨above, below⟩
  refine foreign ?_
  have data := cell.data (s - v.dataSector d 0) (by omega)
  rwa [dataSector, show v.setup.details.clusterHeapOffset + (d - 2) * v.setup.details.sectorsPerCluster +
      (s - v.dataSector d 0) = s by
    rw [dataSector] at above ⊢; omega] at data

theorem newFolder_changes : Changes home {d} v (v.newFolder d) := by
  have taken := newFolder_taken cell
  have bitmap : BitmapLayout size home (v.searchAt (d + 1)).setup := cell.layout.toBitmapLayout.of_bitmap rfl
  refine ⟨?_, fun _ => ?_, fun c inHeap other => ?_, fun c inHeap _ => taken.fatEntry c inHeap,
    fun c data inHeap other i inside => ?_⟩
  · rw [newFolder_setup]
    rfl
  · rw [newFolder_setup]
    exact Nat.le_succ_of_le cell.inHeap.1
  · refine (taken.isFree c inHeap).trans (and_iff_left fun has => other ?_)
    obtain ⟨above, below⟩ := has
    exact Nat.le_antisymm (Nat.lt_succ_iff.mp below) above
  · have outside : ¬ (v.dataSector d 0 ≤ v.dataSector c i ∧
        v.dataSector c i < v.dataSector d 0 + v.setup.details.sectorsPerCluster) := by
      rintro ⟨above, below⟩
      have same : v.dataSector c i = v.dataSector d (v.dataSector c i - v.dataSector d 0) := by
        simp only [dataSector] at above ⊢
        omega
      exact other (dataSector_inj inHeap.1 cell.inHeap.1 inside (by omega) same).1
    have foreign : home (v.dataSector c i) ≠ .bitmap := by
      rw [data i inside]
      decide
    have below : (⟨d, 1⟩ : AllocatedRun).firstCluster + (⟨d, 1⟩ : AllocatedRun).clusterCount ≤
      (v.searchAt (d + 1)).endCluster :=
      cell.inHeap.2
    have kept : ((v.searchAt (d + 1)).mark ⟨d, 1⟩ true).sectors (v.dataSector c i) = v.sectors (v.dataSector c i) :=
      mark_others bitmap cell.inHeap.1 below true foreign
    exact (if_neg outside).trans kept

/-- The cluster is a folder without entries, unless the FAT has a successor for it. -/
theorem newFolder_folder (unlinked : v.next d = none) : (v.newFolder d).Folder home d ⟨[], v.clusterSlots⟩ := by
  have changes := newFolder_changes cell
  have taken := newFolder_taken cell
  have cell' := changes.dirCluster cell
  refine ⟨cell', fun free' => ?_, ?_, ?_, fun x member => by cases member⟩
  · exact ((taken.isFree d cell.inHeap).mp free').2 ⟨le_rfl, Nat.lt_succ_self d⟩
  · rw [next_of_fatEntry (taken.fatEntry d cell.inHeap), unlinked]
  · rw [changes.clusterSlots]
    refine List.eq_replicate_iff.mpr ⟨length_rawEntries .., fun raw member => ?_⟩
    obtain ⟨k, within, rfl⟩ := List.mem_map.mp member
    have inside := cell.sector_lt (k := k) (by simpa using within)
    rw [changes.slotLocation, entryAt, slotLocation]
    have zero : (v.newFolder d).sectors (v.dataSector d (k / DirectoryEntryChain.dirEntriesPerBlock size)) =
        fun _ => 0 := by
      refine if_pos ⟨?_, ?_⟩
      · exact Nat.le_add_right ..
      · exact Nat.add_lt_add_left inside _
    rw [zero]
    funext i
    rw [Block.chunk, zeroEntry]
    unfold Block.byte
    split <;> rfl

end NewFolder

/-- No free cluster has a successor in the FAT. -/
def Unlinked (v : Volume size) : Prop := ∀ d, v.InHeap d → v.IsFree d → v.next d = none

/-- The volume with `made` more folders, for which clusters were free, and nothing else. -/
structure Furnishes (home : Nat → CacheKind) (aside : Set Nat) (v v' : Volume size) (cat cat' : Catalog)
    (made : Nat) : Prop
    extends Becomes home aside v v' cat cat' where
  kept : ∀ c i set, cat.Has c i set → cat'.Has c i set ∧ cat'.clusters c i = cat.clusters c i
  store : ∀ c k e, cat.store v c k = some e → cat'.store v' c k = some e
  free : ∀ d, v.InHeap d → v'.IsFree d → v.IsFree d
  entries : ∀ d, v.InHeap d → v'.fatEntry d = v.fatEntry d
  count : v.freeClusters.card = v'.freeClusters.card + made

section Furnishes

variable {v'' : Volume size} {aside : Set Nat} {cat cat' cat'' : Catalog} {made made' : Nat}

theorem Furnishes.inHeap (furnishes : Furnishes home aside v v' cat cat' made) : v'.InHeap d ↔ v.InHeap d := by
  rw [InHeap, InHeap, endCluster, endCluster, furnishes.setup]

theorem Furnishes.clusterSlots (furnishes : Furnishes home aside v v' cat cat' made) :
    v'.clusterSlots = v.clusterSlots := by
  rw [Volume.clusterSlots, Volume.clusterSlots, furnishes.details]

theorem Furnishes.mostSlots (furnishes : Furnishes home aside v v' cat cat' made) : v'.mostSlots = v.mostSlots := by
  rw [Volume.mostSlots, Volume.mostSlots, furnishes.clusterSlots, furnishes.setup]

theorem Furnishes.unlinked (furnishes : Furnishes home aside v v' cat cat' made) (unlinked : v.Unlinked) :
    v'.Unlinked := by
  intro d inHeap free
  rw [furnishes.inHeap] at inHeap
  rw [next_of_fatEntry (furnishes.entries d inHeap)]
  exact unlinked d inHeap (furnishes.free d inHeap free)

theorem Furnishes.refl (catalogued : v.Catalogued home aside cat) : Furnishes home aside v v cat cat 0 where
  catalogued := catalogued
  tidy tidy := tidy
  setup := rfl
  kept _ _ _ has := ⟨has, rfl⟩
  store _ _ _ there := there
  free _ _ free := free
  entries _ _ := rfl
  count := rfl

theorem Furnishes.trans (first : Furnishes home aside v v' cat cat' made)
    (second : Furnishes home aside v' v'' cat' cat'' made') :
    Furnishes home aside v v'' cat cat'' (made + made') where
  toBecomes := first.toBecomes.trans second.toBecomes
  kept c i set has := by
    obtain ⟨has', same⟩ := first.kept c i set has
    obtain ⟨has'', same'⟩ := second.kept c i set has'
    exact ⟨has'', same'.trans same⟩
  store c k e there := second.store c k e (first.store c k e there)
  free d inHeap free := first.free d inHeap (second.free d (first.inHeap.mpr inHeap) free)
  entries d inHeap := (second.entries d (first.inHeap.mpr inHeap)).trans (first.entries d inHeap)
  count := by
    rw [first.count, second.count]
    omega

/-- Taking one free cluster leaves one less. -/
theorem Taken.count (taken : Taken home ⟨d, 1⟩ v v') (inHeap : v.InHeap d) (free : v.IsFree d) :
    v.freeClusters.card = v'.freeClusters.card + 1 := by
  have erased : v'.freeClusters = v.freeClusters.erase d := by
    ext c
    rw [Finset.mem_erase, mem_freeClusters, mem_freeClusters, taken.inHeap]
    constructor
    · rintro ⟨here, free'⟩
      obtain ⟨free, outside⟩ := (taken.isFree c here).mp free'
      refine ⟨?_, here, free⟩
      rintro rfl
      exact outside ⟨le_rfl, Nat.lt_succ_self c⟩
    · rintro ⟨other, here, free⟩
      refine ⟨here, (taken.isFree c here).mpr ⟨free, fun has => other ?_⟩⟩
      exact Nat.le_antisymm (Nat.lt_succ_iff.mp has.2) has.1
  rw [erased, Finset.card_erase_add_one (mem_freeClusters.mpr ⟨inHeap, free⟩)]

theorem Taken.edited {run : AllocatedRun} (taken : Taken home run v v') (layout : Layout size home v.setup)
    (edited : Edited home v' v'') :
    Taken home run v v'' where
  setup := by rw [edited.setup, taken.setup]
  isFree c inHeap := (edited.isFree (taken.layout layout) (taken.inHeap.mpr inHeap)).trans (taken.isFree c inHeap)
  fatEntry c inHeap :=
    (edited.fatEntry (taken.layout layout) (taken.inHeap.mpr inHeap)).trans (taken.fatEntry c inHeap)

/-- Taking one free cluster for a folder furnishes the volume with it. -/
theorem Taken.furnishes (taken : Taken home ⟨d, 1⟩ v v') (inHeap : v.InHeap d) (free : v.IsFree d)
    (catalogued : v'.Catalogued home aside cat') (tidy : v.Tidy aside cat → v'.Tidy aside cat')
    (kept : ∀ c i set, cat.Has c i set → cat'.Has c i set ∧ cat'.clusters c i = cat.clusters c i)
    (store : ∀ c k e, cat.store v c k = some e → cat'.store v' c k = some e) :
    Furnishes home aside v v' cat cat' 1 where
  catalogued := catalogued
  tidy := tidy
  setup := taken.setup
  kept := kept
  store := store
  free c here free := ((taken.isFree c here).mp free).1
  entries := taken.fatEntry
  count := taken.count inHeap free

end Furnishes

/-- Writing a set to a folder changes neither the bitmap nor the FAT. -/
theorem DirCluster.insert_edited (cell : v.DirCluster home c) {i : Nat} {raws : List RawDirEntry}
    (inside : i + raws.length ≤ v.clusterSlots) : Edited home v (putEntries c i raws v.tick) := by
  refine (tick_edited v).trans (putEntries_edited raws fun j within => ?_)
  have ticked : Edited home v v.tick := tick_edited v
  rw [ticked.slotLocation]
  exact cell.home_eq (by omega)

/-- The entry set that names a new folder. -/
def folderEntry (v : Volume size) (name : List Char) (d : Nat) : NewEntry where
  name := name
  firstCluster := d
  attributes := attrDirectory
  flags := Session.allocatedFlags
  validDataLength := v.setup.details.clusterLength
  dataLength := v.setup.details.clusterLength

theorem Made.isFolder {place : Location} {name : List Char} {set : EntrySet} {w : Volume size}
    (made : w.Made (v.folderEntry name d) place set) : set.isFolder = true := by
  rw [EntrySet.isFolder, made.attributes]
  rfl

/-- The entry of a new folder is one of a folder of one cluster. -/
theorem Made.folderEntry {place : Location} {name : List Char} {set : EntrySet} {w v' : Volume size}
    {folders : Finset Nat} (made : w.Made (v.folderEntry name d) place set) (layout : Layout size home v.setup)
    (details : v'.setup.details = v.setup.details) (member : d ∈ folders)
    (inner : d ≠ v.setup.details.firstClusterOfRootDir) : v'.FolderEntry folders set := by
  have cluster : set.firstCluster = d := made.firstCluster
  have length : set.dataLength = v.setup.details.clusterLength := made.dataLength
  have valid : set.validDataLength = v.setup.details.clusterLength := made.validDataLength
  have pos : 0 < v.setup.details.clusterLength :=
    layout.clusterLength ▸ Nat.mul_pos layout.pos layout.sectorsPerCluster
  refine ⟨?_, cluster ▸ member, ?_, ?_, by rw [length, valid]⟩
  · rw [made.attributes]
    rfl
  · rw [cluster, details]
    exact inner
  · rw [length, details, FileSystem.divCeil]
    exact Nat.div_eq_of_lt_le (by omega) (by omega)

/-- An entry that is put where none was leaves the others. -/
theorem Revises.keeps {v' : Volume size} {aside : Set Nat} {cat : Catalog} {i : Nat} {list : DirList}
    {new : Option EntrySet} {cs : List Nat}
    (revises : Revises home aside v v' cat c i list new cs) (here : c ∈ cat.folders)
    (vacant : ∀ set, ¬ cat.Has c i set)
    {c' i' : Nat} {set : EntrySet} (has : cat.Has c' i' set) : (cat.edit c i list cs).Has c' i' set ∧
      (cat.edit c i list cs).clusters c' i' = cat.clusters c' i' := by
  have apart : ¬ (c' = c ∧ i' = i) := by
    rintro ⟨rfl, rfl⟩
    exact vacant set has
  exact ⟨(revises.has_iff here).mpr (.inl ⟨has, apart⟩), cat.edit_clusters_ne c i list cs apart⟩

/-- There is a path to every folder when the new one has a name in an old one. -/
theorem Reachable.named {v' : Volume size} {cat cat' : Catalog} {k : List Nat} (reachable : v.Reachable cat)
    (here : c ∈ cat.folders)
    (details : v'.setup.details = v.setup.details)
    (more : ∀ c k e, cat.store v c k = some e → cat'.store v' c k = some e)
    (others : ∀ e ≠ d, e ∈ cat'.folders → e ∈ cat.folders) (there : cat'.store v' c k = some (.folder d)) :
    v'.Reachable cat' := by
  intro e folder
  rw [details]
  by_cases same : e = d
  · obtain ⟨ks, walked⟩ := reachable c here
    exact ⟨ks ++ [k], Store.walk_snoc.mpr ⟨c, Store.walk_mono (fun c' k e => more c' k _) walked, same ▸ there⟩⟩
  · obtain ⟨ks, walked⟩ := reachable e (others e same folder)
    exact ⟨ks, Store.walk_mono (fun c' k e => more c' k _) walked⟩

section Furnish

variable {aside : Set Nat} {cat : Catalog} {i : Nat} {name : List Char} {set : EntrySet} {place : Location}
  (shows : v.Catalogued home aside cat)
  (here : c ∈ cat.folders) (inHeap : v.InHeap d) (free : v.IsFree d) (unlinked : v.next d = none)

include shows free

/-- No name in the store stands for a free cluster. -/
theorem Catalogued.fresh_folder (here : c ∈ cat.folders) :
    (cat.store v).Fresh v.setup.details.firstClusterOfRootDir c (some (.folder d)) where
  hollow := by
    rintro _ ⟨⟩ k
    exact if_neg (shows.unowned free).1
  apart := by
    rintro _ ⟨⟩
    refine ⟨?_, ?_⟩
    · rintro rfl
      exact (shows.unowned free).1 here
    · rintro rfl
      exact (shows.unowned free).1 shows.root
  unnamed := by
    rintro _ ⟨⟩ c' k named
    obtain ⟨_, _, has, _, kind, rfl⟩ := shows.store_folder.mp named
    exact (shows.unowned free).1 (shows.inner has kind).folder

include inHeap unlinked

/-- The free cluster is made a folder that has no name yet. -/
theorem Catalogued.refold_new : Refolds home v (v.newFolder d) cat (cat.add d ⟨[], v.clusterSlots⟩) d :=
  have cell := shows.cell inHeap (shows.data d inHeap free)
  shows.add inHeap free (newFolder_changes cell) (newFolder_folder cell unlinked) rfl fun raw used member =>
    by cases member

include here

/-- Naming the new folder furnishes the volume with it. -/
theorem Catalogued.furnish (run : EmptyRun (cat.list c).raws i set.raws.length)
    (bounded : Bounded (cat.list c).raws i)
    (made : (v.newFolder d).Made (v.folderEntry name d) place set)
    (absent : cat.store v c (v.setup.upcaseTable.key name) = none) :
    ∃ cat', Furnishes home aside v (putEntries c i set.raws (v.newFolder d).tick) cat cat' 1 ∧ d ∈ cat'.folders ∧
      (putEntries c i set.raws (v.newFolder d).tick).rawEntries d 0 v.clusterSlots =
        List.replicate v.clusterSlots zeroEntry ∧
      cat'.store (putEntries c i set.raws (v.newFolder d).tick) =
        (cat.store v).put c (v.setup.upcaseTable.key name) (some (.folder d)) := by
  obtain ⟨cat₁, added⟩ : ∃ cat₁, cat.add d ⟨[], v.clusterSlots⟩ = cat₁ := ⟨_, rfl⟩
  have cell := shows.cell inHeap (shows.data d inHeap free)
  have other : d ≠ c := fun same => (shows.unowned free).1 (same ▸ here)
  have member : d ∈ cat₁.folders := added ▸ Finset.mem_insert_self ..
  have old : ∀ e ∈ cat.folders, e ∈ cat₁.folders := fun e old => added ▸ Finset.mem_insert_of_mem old
  have list : cat₁.list c = cat.list c := added ▸ if_neg other.symm
  have list_new : cat₁.list d = ⟨[], v.clusterSlots⟩ := added ▸ if_pos rfl
  have refolds := shows.refold_new inHeap free unlinked
  rw [added] at refolds
  have shows₁ := shows.refold refolds (old _ shows.root)
  have store₁ := shows.store_refold refolds (old _ shows.root)
  have changes := refolds.changes
  have inside := run.1
  have parent := shows₁.folder c (old c here)
  rw [← list, parent.length] at inside
  have edited : Edited home (v.newFolder d) (putEntries c i set.raws (v.newFolder d).tick) :=
    parent.cell.insert_edited inside
  have details : (putEntries c i set.raws (v.newFolder d).tick).setup.details = v.setup.details :=
    edited.details.trans changes.details
  have kind := made.isFolder
  have cluster : set.firstCluster = d := made.firstCluster
  have unnamed : ∀ c' i' set', cat₁.Has c' i' set' → set'.isFolder = true → set'.firstCluster ≠ set.firstCluster := by
    intro c' i' set' has kind' same
    rw [cluster] at same
    exact (shows.unowned free).1 (same ▸ (shows.inner ((refolds.has c' i' set').mp has) kind').folder)
  have entry : (putEntries c i set.raws (v.newFolder d).tick).FolderEntry cat₁.folders set :=
    made.folderEntry shows.layout details member fun same => (shows.unowned free).1 (same ▸ shows.root)
  have nothing : ∀ e ∈ ([] : List Nat), cat₁.Unowned e := fun e member => by cases member
  obtain ⟨⟨list', revises⟩, vacant⟩ := shows₁.inserts (old c here) (list ▸ run) (list ▸ bounded) made.hashed nothing
    (fun file => by rw [kind] at file; cases file) fun _ => ⟨entry, rfl, unnamed⟩
  have key : v.setup.upcaseTable.key set.name = v.setup.upcaseTable.key name := congrArg _ made.name
  have keyed : (v.newFolder d).Keyed cat₁ c i ((v.newFolder d).setup.upcaseTable.key set.name) (some set) := by
    refine Catalogued.keyed_new vacant fun j set' has same => ?_
    rw [changes.upcaseTable, key] at same
    cases absent.symm.trans (shows.store_iff.mpr ⟨j, set', (refolds.has c j set').mp has, same, rfl⟩)
  have catalogued := shows₁.edit (old c here) revises.mono keyed
  have store := shows₁.store_edit (old c here) revises.mono keyed
  rw [store₁, changes.upcaseTable, key, Option.map_some, Catalog.entry, if_pos kind, cluster] at store
  have taken := (newFolder_taken cell).edited shows.layout edited
  have kept c' i' set' (has : cat.Has c' i' set') : (cat₁.edit c i list' []).Has c' i' set' ∧
      (cat₁.edit c i list' []).clusters c' i' = cat.clusters c' i' := by
    obtain ⟨has', clusters⟩ := revises.keeps (old c here) vacant ((refolds.has c' i' set').mpr has)
    exact ⟨has', clusters.trans (congrFun (congrFun refolds.clusters c') i')⟩
  have more : ∀ c' k e, cat.store v c' k = some e →
      (cat₁.edit c i list' []).store (putEntries c i set.raws (v.newFolder d).tick) c' k = some e := by
    intro c' k e there
    rw [store, Store.put_ne]
    · exact there
    · rintro ⟨rfl, rfl⟩
      cases absent.symm.trans there
  have tidy (tidy : v.Tidy aside cat) : (putEntries c i set.raws (v.newFolder d).tick).Tidy aside
      (cat₁.edit c i list' []) := by
    refine ⟨tidy.reachable.named here details more (fun e other folder => (refolds.others e other).mp folder)
      ((congrFun (congrFun store c) _).trans (Store.put_self ..)), ?_⟩
    exact (tidy.reserved.refold refolds fun gone => (tidy.reserved d gone).2.1 free).edit (old c here) revises
      fun e member => by cases member
  refine ⟨_, taken.furnishes inHeap free catalogued tidy kept more, member, ?_, store⟩
  have content := (catalogued.folder d member).content
  rw [Catalog.edit_list_ne _ _ _ _ _ other, list_new, edited.clusterSlots, changes.clusterSlots] at content
  exact content

end Furnish

end Volume

/-- The cluster that the search has found becomes a folder without entries. -/
theorem Session.newFolder_runs {size n : Nat} {home : Nat → CacheKind} {d : Nat} {s : Session size n}
    {v : Volume size} (cell : v.DirCluster home d)
    (found : FileSystem.Leads home (Allocator.findFreeClusters none 1 .longestRun) s.fs (.ok ⟨d, 1⟩)
      (v.searchAt (d + 1))) :
    ∃ s₁ s₂ s₃ : Session size n, onFs (Allocator.findFreeClusters none 1 .longestRun) s = (.ok ⟨d, 1⟩, s₁) ∧
      Allocator.markAllocated ⟨d, 1⟩ true s₁ = (.ok (), s₂) ∧ zeroCluster d s₂ = (.ok (), s₃) ∧ s₃.fs.Sound home ∧
      s₃.fs.volume home = v.newFolder d := by
  obtain ⟨s₁, run₁, sound₁, shown₁⟩ := leads_onFs (s := s) found
  have shown₁ : s₁.fs.volume home = v.searchAt (d + 1) := shown₁
  have setup₁ : s₁.fs.setup = (v.searchAt (d + 1)).setup := congrArg Volume.setup shown₁
  have bitmap : BitmapLayout size home s₁.fs.setup := setup₁ ▸ cell.layout.toBitmapLayout.of_bitmap rfl
  have high : (⟨d, 1⟩ : AllocatedRun).firstCluster + (⟨d, 1⟩ : AllocatedRun).clusterCount ≤
      (s₁.fs.volume home).endCluster := by
    rw [shown₁]
    exact cell.inHeap.2
  obtain ⟨s₂, run₂, sound₂, shown₂⟩ := Allocator.markAllocated_leads sound₁ bitmap true Nat.one_pos cell.inHeap.1 high
  have shown₂ : s₂.fs.volume home = (v.searchAt (d + 1)).mark ⟨d, 1⟩ true := by
    rw [← shown₁]
    exact shown₂
  have setup₂ : (s₂.fs.volume home).setup = (v.searchAt (d + 1)).setup := by
    rw [shown₂, Volume.mark_setup]
  have cell₁ : (v.searchAt (d + 1)).DirCluster home d :=
    ⟨cell.room, cell.layout.of_same rfl rfl rfl rfl, cell.inHeap, cell.data, cell.past⟩
  obtain ⟨s₃, run₃, sound₃, shown₃⟩ := zeroCluster_leads sound₂ (cell₁.of_setup setup₂)
  refine ⟨s₁, s₂, s₃, run₁, run₂, run₃, sound₃, shown₃.trans ?_⟩
  rw [Volume.newFolder, ← shown₂, Volume.dataSector, Volume.dataSector, setup₂]
  rfl

namespace FileSystem.Shows

open Volume

variable {size n fuel : Nat} {home : Nat → CacheKind} {aside : Set Nat} {cat : Catalog} {c : Nat} {name : List Char}

theorem of_furnishes {v v' : Volume size} {cat' : Catalog} {made : Nat} {fs : FileSystem size n}
    (furnishes : Furnishes home aside v v' cat cat' made)
    (sound : fs.Sound home) (shown : fs.volume home = v') (enough : v.mostSlots < fuel) :
    Shows home aside fuel fs cat' where
  sound := sound
  catalogued := shown ▸ furnishes.catalogued
  enough := shown ▸ furnishes.mostSlots ▸ enough

/-- The branch of `get_or_create_directory` for a missing name makes a folder without entries. -/
theorem createDirectoryIn_leads {v : Volume size} {s : Session size n} (shows : Shows home aside fuel s.fs cat)
    (shown : s.fs.volume home = v)
    (here : c ∈ cat.folders) (nameable : v.Nameable name) (room : v.Room c name)
    (absent : cat.store v c (v.setup.upcaseTable.key name) = none) (free : ∃ d, v.InHeap d ∧ v.IsFree d)
    (unlinked : v.Unlinked) :
    ∃ v' d cat', Session.Leads home (Session.createDirectoryIn fuel name c) s (.ok d) v' ∧
      Furnishes home aside v v' cat cat' 1 ∧ d ∈ cat'.folders ∧
      v'.rawEntries d 0 v.clusterSlots = List.replicate v.clusterSlots zeroEntry ∧
      cat'.store v' = (cat.store v).put c (v.setup.upcaseTable.key name) (some (.folder d)) ∧
      (cat.store v).Fresh v.setup.details.firstClusterOfRootDir c (some (.folder d)) := by
  subst shown
  have catalogued := shows.catalogued
  obtain ⟨first, fitting⟩ := exists_fitting free
  obtain ⟨d, fitting', found⟩ | ⟨none_, _⟩ :=
    Allocator.findFreeClusters_longest shows.sound catalogued.layout.toBitmapLayout Nat.one_pos catalogued.search
  case inr => exact absurd fitting (none_ first)
  obtain ⟨low, high, allFree⟩ := fitting'.low catalogued.search
  have inHeap : (s.fs.volume home).InHeap d := ⟨low, high⟩
  have free := allFree d le_rfl (Nat.lt_succ_self d)
  have cell := catalogued.cell inHeap (catalogued.data d inHeap free)
  obtain ⟨s₁, s₂, s₃, run₁, run₂, run₃, sound₃, shown₃⟩ := Session.newFolder_runs cell found
  have changes := newFolder_changes cell
  have folder := (catalogued.folder c here).kept changes fun same => (catalogued.unowned free).1 (same ▸ here)
  have small : d < 2 ^ 32 := by
    have ids : s.fs.setup.bitmap.clusterCount + 1 ≤ Fat.clusterLen := catalogued.layout.ids
    have high : d < 2 + s.fs.setup.bitmap.clusterCount := inHeap.2
    exact (by omega : d ≤ Fat.clusterLen).trans_lt (by decide)
  have bound : s.fs.setup.details.clusterLength < 2 ^ 32 := catalogued.layout.clusterBound
  have fits : ((s.fs.volume home).folderEntry name d).Fits :=
    ⟨small, bound.trans (by decide), bound.trans (by decide), nameable.short⟩
  have nameable₃ : ((s.fs.volume home).newFolder d).Nameable name :=
    ⟨changes.upcaseTable.symm ▸ nameable.accepted, nameable.short⟩
  have room₃ : ((s.fs.volume home).newFolder d).Room c name := by
    rw [Room, folder.content, ← (catalogued.folder c here).content]
    exact room
  obtain ⟨i, set, run, bounded, made, s₄, run₄, sound₄, shown₄⟩ :=
    folder.create sound₃ shown₃ (changes.clocked catalogued.clocked) (changes.mostSlots.symm ▸ shows.enough) fits
      nameable₃ room₃
  obtain ⟨cat', furnishes, member, empty, store⟩ :=
    catalogued.furnish here inHeap free (unlinked d inHeap free) run bounded made absent
  refine ⟨_, d, cat', .of_run ?_ sound₄ shown₄, furnishes, member, empty, store, catalogued.fresh_folder free here⟩
  have length : s₃.fs.fs.clusterLength = s.fs.setup.details.clusterLength := by
    have setup₃ := congrArg (fun v : Volume size => v.setup.details) shown₃
    exact congrArg FileSystemDetails.clusterLength (setup₃.trans changes.details)
  rw [Session.createDirectoryIn, Exec.bind_of_ok run₁, Exec.bind_of_ok run₂, Exec.bind_of_ok run₃,
    Exec.bind_of_ok (Exec.get_apply s₃), length]
  exact Exec.bind_of_ok run₄

end FileSystem.Shows

end ExFatSlim
