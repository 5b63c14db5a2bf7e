import ExFatSlim.CatalogWrites
import ExFatSlim.FolderPaths

namespace ExFatSlim

/-- The last name of the path is what `split_path` cuts off. -/
def PlainPath (path : List Char) : Prop := pathToIter path = pathToIter (splitPath path).1 ++ [(splitPath path).2]

instance (path : List Char) : Decidable (PlainPath path) := inferInstanceAs (Decidable (_ = _))

namespace Volume

variable {size : Nat} {home : Nat → CacheKind} {v v' : Volume size} {aside : Set Nat} {cat cat' : Catalog}
  {c d i : Nat} {set : EntrySet}
  {name : List Char}

/-- The entry set of a new file. -/
def fileEntry (name : List Char) : NewEntry where
  name := name
  firstCluster := noClusterId
  attributes := attrArchive
  flags := Session.allocatedFlags
  validDataLength := 0
  dataLength := 0

theorem fileEntry_fits (short : (encodeUtf16 name).length ≤ 255) : (fileEntry name).Fits :=
  ⟨(by decide : noClusterId < 2 ^ 32), (by decide : 0 < 2 ^ 64), (by decide : 0 < 2 ^ 64), short⟩

theorem Furnishes.nameable {made : Nat} (furnishes : Furnishes home aside v v' cat cat' made)
    (nameable : v.Nameable name) : v'.Nameable name :=
  ⟨furnishes.upcaseTable.symm ▸ nameable.accepted, nameable.short⟩

/-- A file can be created under the path, for which `missing` folders have to be made. -/
structure Creatable (v : Volume size) (path : List Char) (missing : Nat) : Prop where
  plain : PlainPath path
  nameable : ∀ name ∈ pathToIter path, v.Nameable name
  makeable : v.Makeable (some (splitPath path).2)
    (pathToIter (splitPath path).1) v.setup.details.firstClusterOfRootDir missing
  unlinked : missing ≠ 0 → v.Unlinked

theorem Creatable.keys {path : List Char} {missing : Nat} (creatable : v.Creatable path missing) :
    v.setup.upcaseTable.keys path =
    v.setup.upcaseTable.keys (splitPath path).1 ++ [v.setup.upcaseTable.key (splitPath path).2] := by
  rw [UpcaseTable.keys, creatable.plain, List.map_append]
  rfl

/-- The volume `v₁` has the folders on the way to the path, and room for the
entry `e` under its last name at number `i` of folder `d`. -/
structure Lodged (home : Nat → CacheKind) (aside : Set Nat) (v v₁ : Volume size) (cat cat₁ : Catalog)
    (path : List Char) (e : NewEntry) (d i : Nat)
    (set : EntrySet) (missing : Nat) : Prop where
  furnishes : Furnishes home aside v v₁ cat cat₁ missing
  folder : d ∈ cat₁.folders
  walked : (cat₁.store v₁).walk v₁.setup.details.firstClusterOfRootDir (v.setup.upcaseTable.keys (splitPath path).1) =
    some d
  paths : v₁.paths cat₁ = Store.furnished (v.paths cat) (v.setup.upcaseTable.keys (splitPath path).1)
  run : EmptyRun (cat₁.list d).raws i set.raws.length
  bounded : Bounded (cat₁.list d).raws i
  made : v₁.Made e (v₁.slotLocation d i) set
  absent : cat₁.store v₁ d (v₁.setup.upcaseTable.key e.name) = none

/-- The entry of a new file is that of an empty one. -/
theorem Catalogued.creates (shows : v.Catalogued home aside cat) (here : c ∈ cat.folders)
    (run : EmptyRun (cat.list c).raws i set.raws.length)
    (bounded : Bounded (cat.list c).raws i) (made : v.Made (fileEntry name) (v.slotLocation c i) set)
    (absent : cat.store v c (v.setup.upcaseTable.key name) = none) :
    ∃ list, Revises home ∅ v (putEntries c i set.raws v.tick) cat c i list (some set) [] ∧
      v.Keyed cat c i (v.setup.upcaseTable.key name) (some set) ∧ cat.clusters c i = [] ∧
      (putEntries c i set.raws v.tick).Vacant c i set
        ((fileEntry name).details v.setup.now (v.slotLocation c i)) := by
  have folder := shows.folder c here
  have inside := run.1
  rw [folder.length] at inside
  have edited : Edited home v (putEntries c i set.raws v.tick) := folder.cell.insert_edited inside
  have kind : set.isFolder = false := by
    rw [EntrySet.isFolder, made.attributes]
    rfl
  have length : set.dataLength = 0 := made.dataLength
  have valid : set.validDataLength = 0 := made.validDataLength
  have entry : (putEntries c i set.raws v.tick).FileEntry home c i set [] := by
    refine ⟨?_, FileSystem.stores_nil (edited.layout shows.layout) length valid, ?_⟩
    · rw [made.attributes]
      rfl
    · rw [length]
      exact Nat.pow_pos (by decide)
  have nothing : ∀ e ∈ ([] : List Nat), cat.Unowned e := fun e member => by cases member
  obtain ⟨⟨list, revises⟩, vacant⟩ :=
      shows.inserts here run bounded made.hashed nothing (fun _ => entry) fun folder => by
    rw [kind] at folder
    cases folder
  have key : v.setup.upcaseTable.key set.name = v.setup.upcaseTable.key name := congrArg _ made.name
  refine ⟨list, revises, ?_, shows.clusters_nil vacant, kind, length, (edited.slotLocation c i).symm, ?_,
    rfl, rfl, rfl⟩
  · rw [← key]
    refine Catalogued.keyed_new vacant fun j set' has same => ?_
    cases absent.symm.trans (shows.store_iff.mpr ⟨j, set', has, same.trans key, rfl⟩)
  · exact made.secondaryCount.symm

end Volume

namespace FileSystem.Shows

open Volume

variable {size n : Nat} {home : Nat → CacheKind} {fs : FileSystem size n} {aside : Set Nat} {cat : Catalog}
  {fuel missing : Nat} {path : List Char}

/-- The folders on the way are made, and a new entry is put into the last of them. -/
theorem lodges {v : Volume size} (shows : Shows home aside fuel fs cat) (shown : fs.volume home = v)
    (creatable : v.Creatable path missing)
    (room : missing ≤ v.freeClusters.card) {e : NewEntry} (named : e.name = (splitPath path).2)
    (fits : (encodeUtf16 e.name).length ≤ 255 → e.Fits) :
    ∃ v₁ cat₁ d i set s₁ s₂, (Session.getOrCreateDirectory fuel (splitPath path).1 : ExFat (Session size n) Nat)
      ⟨fs, .new⟩ = (.ok d, s₁) ∧
      e.create fuel d s₁ = (.ok (e.details v₁.setup.now (v₁.slotLocation d i)), s₂) ∧ s₂.fs.Sound home ∧
      s₂.fs.volume home = putEntries d i set.raws v₁.tick ∧
        Lodged home aside v v₁ cat cat₁ path e d i set missing := by
  subst shown
  obtain ⟨plain, nameable, makeable, unlinked⟩ := creatable
  rw [plain, ← named] at nameable
  rw [← named] at makeable
  have start : (cat.store (fs.volume home)).walk (fs.volume home).setup.details.firstClusterOfRootDir [] =
      some (fs.volume home).setup.details.firstClusterOfRootDir := rfl
  obtain ⟨v₁, d, cat₁, ⟨s₁, run₁, sound₁, shown₁⟩, reached⟩ :=
    getOrCreateIn_leads (s := ⟨fs, .new⟩) _ shows rfl shows.catalogued.root
    start makeable nameable room unlinked
  have reached : Reached home aside (some e.name) (fs.volume home) v₁ cat cat₁
    (fs.setup.upcaseTable.keys (splitPath path).1) d missing := reached
  have furnishes := reached.furnishes
  have catalogued := furnishes.catalogued
  have here := reached.folder
  have last := nameable e.name (List.mem_append_right _ (List.mem_singleton_self e.name))
  have spare := reached.spare e.name rfl
  have enough : v₁.mostSlots < fuel := furnishes.mostSlots ▸ shows.enough
  have nameable₁ := furnishes.nameable last
  obtain ⟨i, set, run, bounded, made, s₂, run₂, sound₂, shown₂⟩ :=
    (catalogued.folder d here).create sound₁ shown₁ catalogued.clocked enough (fits last.short) nameable₁ spare.2
  have absent := (catalogued.store_none nameable₁.accepted here).mp spare.1
  refine ⟨v₁, cat₁, d, i, set, s₁, s₂, ?_, run₂, sound₂, shown₂, furnishes, here, ?_, reached.paths, run, bounded,
    made, absent⟩
  · rw [Session.getOrCreateDirectory, Exec.bind_of_ok (Exec.get_apply _)]
    exact run₁
  · rw [furnishes.details]
    exact reached.walked

/-- Creating a file makes the folders on the way to it, and an entry for an empty file. -/
theorem createFile_leads {v : Volume size} (shows : Shows home aside fuel fs cat) (shown : fs.volume home = v)
    (creatable : v.Creatable path missing)
    (room : missing ≤ v.freeClusters.card) :
    ∃ v' cat' d i set details, FileSystem.Leads home (createFile fuel path) fs (.ok details) v' ∧
      Becomes home aside v v' cat cat' ∧ v'.freeClusters.card + missing = v.freeClusters.card ∧
      v'.Reaches cat' path d i set ∧ v'.Vacant d i set details ∧
      ∃ content, v'.paths cat' =
        Function.update (Store.furnished (v.paths cat) (v.setup.upcaseTable.keys (splitPath path).1))
        (v.setup.upcaseTable.keys path) (some (.file content)) := by
  have keys := creatable.keys
  obtain ⟨v₁, cat₁, d, i, set, s₁, s₂, run₁, run₂, sound₂, shown₂, furnishes, here, walked, paths₁, run, bounded,
    made, absent⟩ :=
    shows.lodges shown creatable room (e := fileEntry (splitPath path).2) rfl fileEntry_fits
  have catalogued := furnishes.catalogued
  obtain ⟨list, revises, keyed, none_, vacant⟩ := catalogued.creates here run bounded made absent
  obtain ⟨fs₃, run₃, served, _⟩ := Session.flush_spec sound₂
  have table := furnishes.upcaseTable
  have count := revises.count catalogued here
  have more := furnishes.count
  rw [none_, List.length_nil] at count
  have tidy (tidy : v₁.Tidy aside cat₁) : (putEntries d i set.raws v₁.tick).Tidy aside (cat₁.edit d i list []) := by
    refine ⟨tidy.reachable.edit catalogued here revises.mono keyed fun e there => ?_,
      tidy.reserved.edit here revises fun e member => ?_⟩
    · cases absent.symm.trans there
    · cases member
  refine ⟨_, _, d, i, set, _, .of_run ?_ served.sound (served.volume.trans shown₂),
    furnishes.toBecomes.trans ⟨catalogued.edit here revises.mono keyed, tidy, revises.changes.setup⟩, by omega,
    ⟨_, ?_, catalogued.walk_edit walked revises.mono keyed, ?_⟩, vacant,
      set.content (putEntries d i set.raws v₁.tick) [], ?_⟩
  · have whole : (do
        let directoryClusterId ← Session.getOrCreateDirectory fuel (splitPath path).1
        let details ← (fileEntry (splitPath path).2).create fuel directoryClusterId
        Session.flush
        pure details : ExFat (Session size n) FileDetails) ⟨fs, .new⟩ =
          (.ok ((fileEntry (splitPath path).2).details v₁.setup.now (v₁.slotLocation d i)), ⟨fs₃, .new⟩) := by
      rw [Exec.bind_of_ok run₁, Exec.bind_of_ok run₂, Exec.bind_of_ok run₃]
      rfl
    exact congrArg (fun p => (p.1, p.2.fs)) whole
  · rw [revises.changes.upcaseTable, table, made.name, keys]
    rfl
  · exact (revises.has_iff here).mpr (.inr ⟨⟨rfl, rfl⟩, rfl⟩)
  · have paths :=
        catalogued.paths_edit walked revises.mono keyed (by rintro _ ⟨⟩; exact vacant.file) fun e there => by
      cases absent.symm.trans there
    rw [paths, paths₁, table, keys]
    rfl

/-- Writing to a file that is not there creates it. -/
theorem write_missing (shows : Shows home aside fuel fs cat) {contents : List UInt8}
    (addressable : contents.length < 2 ^ fs.usizeBits)
    (smooth : ¬ File.Trips size fs.fs.clusterLength 0 contents.length)
    (absent : ∀ c i set, ¬ (fs.volume home).Reaches cat path c i set)
    (creatable : (fs.volume home).Creatable path missing)
    (space : FileSystem.divCeil contents.length fs.fs.clusterLength + missing ≤ (fs.volume home).freeClusters.card) :
    ∃ v' cat', FileSystem.Leads home (write fuel path contents) fs (.ok ()) v' ∧
      Becomes home aside (fs.volume home) v' cat cat' ∧
      v'.paths cat' =
        Function.update (Store.furnished ((fs.volume home).paths cat) (fs.setup.upcaseTable.keys (splitPath path).1))
        (fs.setup.upcaseTable.keys path) (some (.file contents)) := by
  have accepts : fs.setup.upcaseTable.Accepts path := fun name member => (creatable.nameable name member).accepted
  obtain ⟨fs₁, found, sound₁, shown₁⟩ :=
    shows.find_file_missing accepts fun c i set reaches => absurd reaches (absent c i set)
  obtain ⟨v₂, cat₂, d, i, set, details, ⟨fs₂, creates, sound₂, shown₂⟩, becomes, count, reaches, vacant,
    content, paths⟩ :=
    (shows.served sound₁ shown₁).createFile_leads shown₁ creatable (by omega)
  have shows₂ := of_becomes becomes sound₂ shown₂ shows.enough
  have table : v₂.setup.upcaseTable = fs.setup.upcaseTable := becomes.upcaseTable
  obtain ⟨length₂, bits₂⟩ := becomes.shown shown₂
  obtain ⟨v₃, list', set₃, cs, run, revises', name', files, fresh, content'⟩ :=
    shows₂.fill_leads reaches.has (shown₂ ▸ vacant)
    writing rfl rfl (bits₂ ▸ addressable) (by rw [length₂, shown₂]; omega) (length₂ ▸ smooth)
  rw [shown₂] at revises' fresh
  have named' : ∀ set' ∈ some set₃, set'.name = set.name := by
    rintro _ ⟨⟩
    exact name'
  have paths' := reaches.paths becomes.catalogued revises' named' vacant.file (by rintro _ ⟨⟩; exact files)
  rw [table, Option.map_some, content', paths] at paths'
  refine ⟨v₃, _, ?_, becomes.trans (reaches.becomes becomes.catalogued revises' named' vacant.file fresh),
    paths'.trans (Function.update_idem ..)⟩
  obtain ⟨fs₃, run, sound₃, shown₃⟩ := run
  refine .of_run ?_ sound₃ shown₃
  have opens : openDetails fuel path writing fs = (.ok details, fs₂) := by
    rw [openDetails, Exec.bind_of_ok (Exec.attempt_of_error found)]
    exact creates
  rw [write_run shows.mounted opens, run]

end FileSystem.Shows

end ExFatSlim
