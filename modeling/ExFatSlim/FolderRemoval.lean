import ExFatSlim.CatalogWrites

namespace ExFatSlim

open DirectoryEntryChain

/-- An entry that is not in use is skipped by the scan for children, or ends it. -/
theorem ofByte_of_unused {raw : RawDirEntry} (unused : ¬ InUse raw) :
    EntryType.ofByte (raw.byte 0) = .endOfDirectory ∨ ∃ x, EntryType.ofByte (raw.byte 0) = .unused x := by
  have bit : raw.byte 0 &&& 0x80 = 0 := not_not.mp unused
  by_cases none_ : raw.byte 0 = 0
  · exact .inl (EntryType.ofByte_zero.mpr none_)
  · exact .inr ⟨raw.byte 0, by rw [EntryType.ofByte, if_neg none_, if_pos bit]⟩

namespace FileSystem

variable {size n : Nat} {home : Nat → CacheKind} {v : Volume size} {place : Nat → Location}

/-- A scan that meets no entry in use finds no children. -/
theorem noChildrenIn_unused (raws : List RawDirEntry) : ∀ {k fuel : Nat} {s : Scan size n},
    Scan.Visits home v isEndOfDirectory (placed place k raws) s → (∀ raw ∈ raws, ¬ InUse raw) → raws.length < fuel →
    ∃ s', noChildrenIn fuel s = (.ok (), s') ∧ s'.Shows home v := by
  induction raws with
  | nil =>
    intro k fuel s visits _ enough
    obtain ⟨fuel, rfl⟩ := Nat.exists_eq_succ_of_ne_zero (Nat.ne_zero_of_lt enough)
    cases visits with
    | ended _ first shows =>
      refine ⟨_, ?_, shows⟩
      rw [noChildrenIn, Exec.bind_of_ok first]
      rfl
  | cons raw raws ih =>
    intro k fuel s visits unused enough
    obtain ⟨fuel, rfl⟩ := Nat.exists_eq_succ_of_ne_zero (Nat.ne_zero_of_lt enough)
    cases visits with
    | stopped _ first shows halt =>
      refine ⟨_, ?_, shows⟩
      rw [noChildrenIn, Exec.bind_of_ok first]
      dsimp only
      rw [EntryType.ofByte_zero.mpr (isEnd_byte halt)]
      exact if_pos halt ▸ rfl
    | visited _ first going rest =>
      obtain ⟨s', run, shows⟩ := ih rest (List.forall_mem_of_forall_mem_cons unused) (Nat.lt_of_succ_lt_succ enough)
      refine ⟨s', ?_, shows⟩
      rw [noChildrenIn, Exec.bind_of_ok first]
      dsimp only
      rcases ofByte_of_unused (unused raw List.mem_cons_self) with type | ⟨x, type⟩
      · rw [type]
        dsimp only
        rw [if_neg (by simp [going])]
        exact run
      · rw [type]
        exact run

/-- A scan that meets an entry in use before the end of the directory raises an error. -/
theorem noChildrenIn_used {raw : RawDirEntry} (used : InUse raw) {after : List RawDirEntry}
    (before : List RawDirEntry) :
    ∀ {k fuel : Nat} {s : Scan size n},
      Scan.Visits home v isEndOfDirectory (placed place k (before ++ raw :: after)) s →
    (∀ raw ∈ before, ¬ InUse raw ∧ raw.byte 0 ≠ 0) → before.length < fuel →
    ∃ s', noChildrenIn fuel s = (.error (.error .directoryNotEmpty), s') ∧ s'.Shows home v := by
  induction before with
  | nil =>
    intro k fuel s visits _ enough
    obtain ⟨fuel, rfl⟩ := Nat.exists_eq_succ_of_ne_zero (Nat.ne_zero_of_lt enough)
    have some_ : raw.byte 0 ≠ 0 := by
      intro none_
      rw [InUse, none_] at used
      exact used rfl
    obtain ⟨s', first, rest⟩ := visits_cons visits (not_end_of_byte some_)
    refine ⟨s', ?_, rest.shows⟩
    rw [noChildrenIn, Exec.bind_of_ok first]
    dsimp only
    cases type : EntryType.ofByte (raw.byte 0) with
    | endOfDirectory => exact absurd (EntryType.ofByte_zero.mp type) some_
    | unused x => exact absurd (EntryType.ofByte_unused type) used
    | _ => rfl
  | cons first before ih =>
    intro k fuel s visits spare enough
    obtain ⟨fuel, rfl⟩ := Nat.exists_eq_succ_of_ne_zero (Nat.ne_zero_of_lt enough)
    obtain ⟨unused, some_⟩ := spare first List.mem_cons_self
    obtain ⟨s₁, run₁, rest⟩ := visits_cons visits (not_end_of_byte some_)
    obtain ⟨s', run, shows⟩ := ih rest (List.forall_mem_of_forall_mem_cons spare) (Nat.lt_of_succ_lt_succ enough)
    refine ⟨s', ?_, shows⟩
    rw [noChildrenIn, Exec.bind_of_ok run₁]
    dsimp only
    rcases ofByte_of_unused unused with type | ⟨x, type⟩
    · exact absurd (EntryType.ofByte_zero.mp type) some_
    · rw [type]
      exact run

end FileSystem

namespace DirList

/-- Pieces of which none is in use without a set hold nothing in use, or spare entries before the first set. -/
theorem plain_pieces (pieces : List Piece) : ∀ k, (∀ raw used, Piece.other raw used ∉ pieces) →
    setsFrom k pieces = [] ∧ (∀ raw ∈ pieces.flatMap Piece.raws, ¬ InUse raw) ∨
    setsFrom k pieces ≠ [] ∧ ∃ before raw after, pieces.flatMap Piece.raws = before ++ raw :: after ∧
      (∀ raw ∈ before, ¬ InUse raw ∧ raw.byte 0 ≠ 0) ∧ InUse raw := by
  induction pieces with
  | nil => exact fun k _ => .inl ⟨rfl, fun raw member => by cases member⟩
  | cons p pieces ih =>
    intro k plain
    have rest := fun raw used member => plain raw used (List.mem_cons_of_mem p member)
    cases p with
    | spare raw unused =>
      rcases ih (k + 1) rest with ⟨empty, none_⟩ | ⟨some_, before, first, after, same, spare, used⟩
      · refine .inl ⟨empty, fun raw' member => ?_⟩
        rcases List.mem_cons.mp member with rfl | member
        · exact unused.1
        · exact none_ raw' member
      · exact .inr ⟨some_, raw :: before, first, after, congrArg (List.cons raw) same,
          List.forall_mem_cons.mpr ⟨unused, spare⟩, used⟩
    | other raw used => exact absurd List.mem_cons_self (plain raw used)
    | file set =>
      have used : InUse set.fileDir := by
        rw [InUse, EntryType.ofByte_file.mp set.isFile]
        decide
      exact .inr ⟨List.cons_ne_nil _ _, [], set.fileDir, _, rfl, (fun raw member => by cases member), used⟩

variable {d : DirList}

theorem Plain.unused (plain : d.Plain) (empty : d.sets = []) : ∀ raw ∈ d.raws, ¬ InUse raw := by
  intro raw member
  rcases List.mem_append.mp member with member | member
  · rcases plain_pieces d.pieces 0 plain with ⟨_, none_⟩ | ⟨some_, _⟩
    · exact none_ raw member
    · exact absurd empty some_
  · rw [List.eq_of_mem_replicate member]
    exact not_inUse_zeroEntry

theorem Plain.used (plain : d.Plain) (some_ : d.sets ≠ []) : ∃ before raw after, d.raws = before ++ raw :: after ∧
    (∀ raw ∈ before, ¬ InUse raw ∧ raw.byte 0 ≠ 0) ∧ InUse raw := by
  rcases plain_pieces d.pieces 0 plain with ⟨empty, _⟩ | ⟨_, before, raw, after, same, spare, used⟩
  · exact absurd empty some_
  · refine ⟨before, raw, after ++ List.replicate d.zeros zeroEntry, ?_, spare, used⟩
    rw [raws, same, List.append_assoc, List.cons_append]

end DirList

namespace Volume

variable {size n : Nat} {home : Nat → CacheKind} {v v' : Volume size} {aside : Set Nat} {cat : Catalog}
  {c d i fuel : Nat} {set : EntrySet}
  {list : DirList}

/-- What `confirm_has_no_children` finds in a folder. -/
theorem Folder.children (folder : v.Folder home d list) (plain : list.Plain) {fs : FileSystem size n}
    (sound : fs.Sound home)
    (shown : fs.volume home = v) (enough : v.mostSlots < fuel) {details : FileDetails}
    (directory : details.attributes.contains attrDirectory = true) (first : details.firstCluster = d) :
    FileSystem.Leads home (FileSystem.confirmHasNoChildren fuel details) fs
      (if list.sets = [] then .ok () else .error (.error .directoryNotEmpty)) v := by
  have visits :=
    FileSystem.Directory.visits folder.cell.room folder.cell.layout folder.directory sound shown isEndOfDirectory
  rw [folder.dirEntries] at visits
  have slots : list.raws.length < fuel := by
    have most := folder.directory.length_le
    rw [folder.dirEntries, length_placed] at most
    omega
  have scanned {r : Except (Fault ExFatError) Unit} {s' : Scan size n}
      (run : FileSystem.noChildrenIn fuel ⟨fs, .new d fs.fs⟩ = (r, s')) : FileSystem.confirmHasNoChildren fuel details
        fs = (r, s'.fs) := by
    rw [FileSystem.confirmHasNoChildren, if_pos directory, Exec.bind_of_ok (Exec.get_apply fs), first]
    exact FileSystem.scanning_of_run run
  by_cases empty : list.sets = []
  · obtain ⟨s', run, shows⟩ := FileSystem.noChildrenIn_unused _ visits (plain.unused empty) slots
    rw [if_pos empty]
    exact .of_run (scanned run) shows.sound shows.volume
  · obtain ⟨before, raw, after, raws, spare, used⟩ := plain.used empty
    rw [raws] at visits slots
    rw [List.length_append] at slots
    have few : before.length < fuel := by omega
    obtain ⟨s', run, shows⟩ := FileSystem.noChildrenIn_used used before visits spare few
    rw [if_neg empty]
    exact .of_run (scanned run) shows.sound shows.volume

section Remove

variable (shows : v.Catalogued home aside cat) (has : cat.Has c i set) (kind : set.isFolder = true)

include shows has kind

/-- A folder's one cluster is what its entry stands for. -/
theorem Catalogued.stores_folder : v.Stores home (set.details (v.slotLocation c i)) [set.firstCluster] where
  count := (shows.inner has kind).count.symm
  valid := (shows.inner has kind).valid
  first d head := by
    cases head
    rfl
  contiguous _ := rfl
  linked _ := (shows.folder _ (shows.inner has kind).folder).threads
  distinct := List.nodup_singleton _
  inHeap d member := by
    cases List.mem_singleton.mp member
    exact (shows.folder _ (shows.inner has kind).folder).cell.inHeap
  used d member := by
    cases List.mem_singleton.mp member
    exact (shows.folder _ (shows.inner has kind).folder).used
  data d member := by
    cases List.mem_singleton.mp member
    exact (shows.folder _ (shows.inner has kind).folder).cell.data

theorem Catalogued.plain_folder : (cat.list set.firstCluster).Plain :=
  shows.plain _ (shows.inner has kind).folder (shows.inner has kind).inner

omit has kind in
/-- A folder without sets is empty in the store. -/
theorem Catalogued.hollow_iff (here : d ∈ cat.folders) : (cat.store v).Hollow d ↔ (cat.list d).sets = [] := by
  constructor
  · intro hollow
    rw [List.eq_nil_iff_forall_not_mem]
    intro x member
    cases (hollow _).symm.trans (shows.store_iff.mpr ⟨x.1, x.2, ⟨here, member⟩, rfl, rfl⟩)
  · intro empty k
    rw [Option.eq_none_iff_forall_ne_some]
    intro e there
    obtain ⟨j, set', has', _⟩ := shows.store_iff.mp there
    have member := has'.2
    rw [empty] at member
    cases member

/-- The entry of a folder without entries is removed, and its cluster freed. -/
theorem Catalogued.removes_folder (empty : (cat.list set.firstCluster).sets = []) {v₁ : Volume size}
    (freed : Freed home [set.firstCluster] v v₁) :
    ∃ cat', Becomes home aside v (putEntries c i (set.raws.map cleared) v₁) cat cat' ∧
      cat'.store (putEntries c i (set.raws.map cleared) v₁) =
        (cat.store v).put c (v.setup.upcaseTable.key set.name) none := by
  have folder := shows.folder c has.1
  have inside := (folder.setAt has.2).inside
  have none_ := shows.clusters_folder has kind
  obtain ⟨list, revises⟩ := shows.removes has (none_.symm ▸ Freed.refl v)
  have keyed : v.Keyed cat c i (v.setup.upcaseTable.key set.name) none := shows.keyed has fun _ made => by cases made
  have shows₁ := shows.edit has.1 revises.mono keyed
  have store₁ := shows.store_edit has.1 revises.mono keyed
  have within : i + (set.raws.map cleared).length ≤ v.clusterSlots := by
    rw [List.length_map]
    exact inside
  have freed₁ := freed.putEntries folder.cell within
  have changes := revises.changes
  have entry := shows.inner has kind
  have other : set.firstCluster ≠ c := by
    intro same
    have member := has.2
    rw [← same, empty] at member
    cases member
  have list₁ : (cat.edit c i list []).list set.firstCluster = cat.list set.firstCluster :=
    Catalog.edit_list_ne _ _ _ _ _ other
  have unnamed : ∀ c' i' set', (cat.edit c i list []).Has c' i' set' → set'.isFolder = true → set'.firstCluster ≠
      set.firstCluster := by
    intro c' i' set' has' kind' same
    rcases (revises.has_iff has.1).mp has' with ⟨old, apart⟩ | ⟨_, made⟩
    · exact apart (shows.once old has kind' kind same)
    · cases made
  have inHeap := changes.inHeap.mpr (shows.folder _ entry.folder).cell.inHeap
  have refolds :=
    shows₁.drop entry.folder (list₁ ▸ empty) unnamed (freed₁.changes.mono fun e member => by simpa using member)
    ((freed₁.free _ inHeap).mpr (.inr (List.mem_singleton_self _)))
  have root : (putEntries c i (set.raws.map cleared) v).setup.details.firstClusterOfRootDir ∈
      ((cat.edit c i list []).drop set.firstCluster).folders := by
    rw [changes.details]
    exact Finset.mem_erase.mpr ⟨entry.inner.symm, shows.root⟩
  have store : ((cat.edit c i list []).drop set.firstCluster).store (putEntries c i (set.raws.map cleared) v₁) =
      (cat.store v).put c (v.setup.upcaseTable.key set.name) none := by
    rw [shows₁.store_refold refolds root, store₁]
    rfl
  refine ⟨_, ⟨shows₁.refold refolds root, fun tidy => ⟨fun e member => ?_, ?_⟩, ?_⟩, store⟩
  · obtain ⟨gone, old⟩ := Finset.mem_erase.mp member
    obtain ⟨ks, walked⟩ := tidy.reachable c has.1
    obtain ⟨path, reached⟩ := tidy.reachable e old
    refine ⟨path, ?_⟩
    rw [store, refolds.changes.details, changes.details]
    exact Store.walk_drop shows.rooted walked (shows.store_folder.mpr ⟨i, set, has, rfl, kind, rfl⟩)
      ((shows.hollow_iff entry.folder).mpr empty) gone reached
  · refine (tidy.reserved.edit has.1 revises fun e member => by cases member).refold refolds fun member => ?_
    exact (tidy.reserved _ member).2.2.1 entry.folder
  · rw [putEntries_setup, freed.setup]

end Remove

end Volume

namespace FileSystem.Shows

open Volume

variable {size n : Nat} {home : Nat → CacheKind} {fs : FileSystem size n} {aside : Set Nat} {cat : Catalog}
  {c i fuel : Nat} {set : EntrySet}
  {path : List Char}

section RemoveDir

variable (shows : Shows home aside fuel fs cat) (accepts : fs.setup.upcaseTable.Accepts path)

include shows accepts

theorem removeDir_missing (missing : ∀ c i set, (fs.volume home).Reaches cat path c i set → set.isFolder = false) :
    FileSystem.Leads home (removeDir fuel path) fs (.error (.error .fileNotFound)) (fs.volume home) := by
  obtain ⟨fs₁, run, sound, shown⟩ := shows.find_missing accepts (some attrDirectory) fun c i set reaches folder => by
    cases (folder _ rfl).symm.trans (missing c i set reaches)
  refine .of_run ?_ sound shown
  rw [removeDir, Exec.bind_of_ok (mount_of_mounted shows.mounted), Exec.bind_of_error run]

section Found

variable (reaches : (fs.volume home).Reaches cat path c i set) (kind : set.isFolder = true)

include reaches kind

theorem children_leads : ∃ fs₁ : FileSystem size n, findFileInner fuel path (some attrDirectory) fs =
      (.ok (set.details ((fs.volume home).slotLocation c i)), fs₁) ∧ fs₁.Sound home ∧ fs₁.volume home =
        fs.volume home ∧
    FileSystem.Leads home (confirmHasNoChildren fuel (set.details ((fs.volume home).slotLocation c i))) fs₁
      (if (cat.list set.firstCluster).sets = [] then .ok () else .error (.error .directoryNotEmpty))
        (fs.volume home) := by
  have catalogued := shows.catalogued
  have folder := catalogued.folder _ (catalogued.inner reaches.has kind).folder
  obtain ⟨fs₁, found, sound₁, shown₁⟩ := shows.find_found accepts (some attrDirectory) reaches fun _ wanted => by
    cases wanted
    exact kind
  exact ⟨fs₁, found, sound₁, shown₁,
    folder.children (catalogued.plain_folder reaches.has kind) sound₁ shown₁ shows.enough kind rfl⟩

/-- A folder that has entries is not removed. -/
theorem removeDir_full (some_ : (cat.list set.firstCluster).sets ≠ []) :
    FileSystem.Leads home (removeDir fuel path) fs (.error (.error .directoryNotEmpty)) (fs.volume home) := by
  obtain ⟨fs₁, found, _, _, children⟩ := shows.children_leads accepts reaches kind
  rw [if_neg some_] at children
  obtain ⟨fs₂, run, sound, shown⟩ := children
  refine .of_run ?_ sound shown
  rw [removeDir, Exec.bind_of_ok (mount_of_mounted shows.mounted), Exec.bind_of_ok found, deleteInner,
    Exec.bind_of_error run]

/-- A folder without entries is removed. -/
theorem removeDir_found (empty : (cat.list set.firstCluster).sets = []) :
    ∃ v' cat', FileSystem.Leads home (removeDir fuel path) fs (.ok ()) v' ∧
      Becomes home aside (fs.volume home) v' cat cat' ∧
      v'.paths cat' = Function.update ((fs.volume home).paths cat) (fs.setup.upcaseTable.keys path) none := by
  have catalogued := shows.catalogued
  have has := reaches.has
  obtain ⟨fs₁, found, sound₁, shown₁, children⟩ := shows.children_leads accepts reaches kind
  rw [if_pos empty] at children
  obtain ⟨fs₂, childless, _, _⟩ := children
  have stores := catalogued.stores_folder has kind
  obtain ⟨v, freed, fs₃, run, sound₃, shown₃⟩ :=
    (shows.served sound₁ shown₁).deleteInner_leads has (by rw [shown₁]) (by rw [shown₁]; exact stores)
    childless
  rw [shown₁] at freed
  obtain ⟨cat', becomes, store⟩ := catalogued.removes_folder has kind empty freed
  refine ⟨_, cat', .of_run ?_ sound₃ shown₃, becomes, ?_⟩
  · rw [removeDir, Exec.bind_of_ok (mount_of_mounted shows.mounted), Exec.bind_of_ok found, run]
  · obtain ⟨ks, split, walked, _⟩ := reaches
    have table : (fs.volume home).setup.upcaseTable = fs.setup.upcaseTable := rfl
    rw [table] at split store
    rw [paths, becomes.details, store, split]
    refine Store.look_put catalogued.rooted walked (Store.fresh_none ..) fun d there => ?_
    obtain ⟨j, other, has', named, folder, rfl⟩ := catalogued.store_folder.mp there
    obtain rfl := catalogued.names has' has named
    obtain rfl := Catalogued.has_inj has' has
    exact (catalogued.hollow_iff (catalogued.inner has folder).folder).mpr empty

end Found

end RemoveDir

end FileSystem.Shows

end ExFatSlim
