import ExFatSlim.Catalogs

namespace ExFatSlim

/-- The keys of the names in a path. -/
def UpcaseTable.keys (table : UpcaseTable) (path : List Char) : List (List Nat) := (pathToIter path).map table.key

/-- The code accepts all names in a path. -/
def UpcaseTable.Accepts (table : UpcaseTable) (path : List Char) : Prop :=
  ∀ part ∈ pathToIter path, ∃ hashed, hashedName table part = .ok hashed

namespace Volume

variable {size : Nat} {home : Nat → CacheKind} {v : Volume size} {aside : Set Nat} {cat : Catalog} {c d i : Nat}
  {set : EntrySet}
  {attributes : Option FileAttributes} {name : List Char}

namespace Catalogued

theorem store_folder (shows : v.Catalogued home aside cat) {k : List Nat} : cat.store v c k = some (.folder d) ↔
    ∃ i set, cat.Has c i set ∧ v.setup.upcaseTable.key set.name = k ∧ set.isFolder = true ∧ set.firstCluster = d := by
  rw [shows.store_iff]
  refine exists_congr fun i => exists_congr fun set => and_congr_right fun _ => and_congr_right fun _ => ?_
  rw [Catalog.entry]
  cases set.isFolder with
  | true => simp [eq_comm]
  | false => simp

/-- The folders of a volume form a tree. -/
theorem rooted (shows : v.Catalogued home aside cat) :
    (cat.store v).Rooted v.setup.details.firstClusterOfRootDir where
  once {c c' d k k'} first second := by
    obtain ⟨i, set, has, rfl, kind, here⟩ := shows.store_folder.mp first
    obtain ⟨i', set', has', rfl, kind', here'⟩ := shows.store_folder.mp second
    obtain ⟨rfl, rfl⟩ := shows.once has has' kind kind' (here.trans here'.symm)
    obtain rfl := has_inj has has'
    exact ⟨rfl, rfl⟩
  top c k found := by
    obtain ⟨i, set, has, rfl, kind, here⟩ := shows.store_folder.mp found
    exact (shows.inner has kind).inner here

/-- A walk that starts at a folder ends at one. -/
theorem walk_folder (shows : v.Catalogued home aside cat) (ks : List (List Nat)) : ∀ {c d : Nat}, c ∈ cat.folders →
    (cat.store v).walk c ks = some d → d ∈ cat.folders := by
  induction ks with
  | nil =>
    intro c d folder walked
    cases walked
    exact folder
  | cons k ks ih =>
    intro c d folder walked
    rw [Store.walk] at walked
    split at walked
    · rename_i b found
      obtain ⟨i, set, has, rfl, kind, rfl⟩ := shows.store_folder.mp found
      exact ih (shows.inner has kind).folder walked
    · cases walked

section Lookup

variable (shows : v.Catalogued home aside cat) {hashed : Nat × Nat}
  (accepted : hashedName v.setup.upcaseTable name = .ok hashed)

include shows accepted

/-- A set with the name and the attributes is found. -/
theorem lookup_found (has : cat.Has c i set) (named : set.Named v.setup.upcaseTable name attributes) :
    v.lookup [c] name attributes = .ok (some (set.details (v.slotLocation c i))) := by
  have some_ : ((cat.list c).sets.find? fun x => decide (x.2.Named v.setup.upcaseTable name attributes)).isSome :=
    List.find?_isSome.mpr ⟨(i, set), has.2, decide_eq_true named⟩
  obtain ⟨⟨j, other⟩, found⟩ := Option.isSome_iff_exists.mp some_
  have has' : cat.Has c j other := ⟨has.1, List.mem_of_find?_eq_some found⟩
  have named' := List.find?_some found
  obtain rfl := shows.names has' has ((of_decide_eq_true named').1.trans named.1.symm)
  obtain rfl := has_inj has' has
  rw [(shows.folder c has.1).lookup accepted, found]
  rfl

theorem lookup_missing (here : c ∈ cat.folders)
    (none_ : ∀ i set, cat.Has c i set → ¬ set.Named v.setup.upcaseTable name attributes) :
    v.lookup [c] name attributes = .ok none := by
  have missing : ((cat.list c).sets.find? fun x => decide (x.2.Named v.setup.upcaseTable name attributes)) = none :=
    List.find?_eq_none.mpr fun x member named => none_ x.1 x.2 ⟨here, member⟩ (of_decide_eq_true named)
  rw [(shows.folder c here).lookup accepted, missing]
  rfl

/-- The next folder on a path is looked up as the walk through the store does it. -/
theorem lookup_folder (here : c ∈ cat.folders) : v.lookup [c] name (some attrDirectory) = .ok none ∧
      (∀ d, cat.store v c (v.setup.upcaseTable.key name) ≠ some (.folder d)) ∨
    ∃ details : FileDetails, v.lookup [c] name (some attrDirectory) = .ok (some details) ∧
      cat.store v c (v.setup.upcaseTable.key name) = some (.folder details.firstCluster) ∧ details.firstCluster ∈
        cat.folders := by
  by_cases found : ∃ i set, cat.Has c i set ∧ set.Named v.setup.upcaseTable name (some attrDirectory)
  · obtain ⟨i, set, has, named⟩ := found
    have kind : set.isFolder = true := named.2 _ rfl
    exact .inr ⟨_, shows.lookup_found accepted has named, shows.store_folder.mpr ⟨i, set, has, named.1, kind, rfl⟩,
      (shows.inner has kind).folder⟩
  · refine .inl ⟨shows.lookup_missing accepted here fun i set has named => found ⟨i, set, has, named⟩,
      fun d there => ?_⟩
    obtain ⟨i, set, has, named, kind, _⟩ := shows.store_folder.mp there
    refine found ⟨i, set, has, named, ?_⟩
    rintro _ ⟨⟩
    exact kind

end Lookup

/-- What the code finds under a path is what it finds under the last name in the folder that the walk ends at. -/
theorem leaf (shows : v.Catalogued home aside cat) (attributes : Option FileAttributes) (parts : List (List Char))
    (last : List Char) : ∀ {c : Nat}, c ∈ cat.folders →
    (∀ part ∈ parts, ∃ hashed, hashedName v.setup.upcaseTable part = .ok hashed) →
    v.Leaf home attributes (parts ++ [last]) c (match (cat.store v).walk c (parts.map v.setup.upcaseTable.key) with
      | some d => v.lookup [d] last attributes
      | none => .ok none) := by
  induction parts with
  | nil => exact fun here _ => .last last (shows.folder _ here).directory
  | cons part parts ih =>
    intro c here accepted
    obtain ⟨hashed, ok⟩ := accepted part List.mem_cons_self
    have directory := (shows.folder c here).directory
    have split : ∃ next rest, parts ++ [last] = next :: rest := List.exists_cons_of_ne_nil (by simp)
    obtain ⟨next, rest, split⟩ := split
    rw [List.map_cons, Store.walk, List.cons_append, split]
    rcases shows.lookup_folder ok here with ⟨missing, none_⟩ | ⟨details, found, there, folder⟩
    · split
      · rename_i d walked
        split at walked
        · rename_i found
          exact absurd found (none_ _)
        · cases walked
      · exact .missing directory missing
    · rw [there, ← split]
      have onward := ih folder (List.forall_mem_of_forall_mem_cons accepted)
      rw [split] at onward ⊢
      exact .into directory found onward

end Catalogued

/-- The path leads to entry number `i` of folder `c`. -/
def Reaches (v : Volume size) (cat : Catalog) (path : List Char) (c i : Nat) (set : EntrySet) : Prop :=
  ∃ ks, v.setup.upcaseTable.keys path = ks ++ [v.setup.upcaseTable.key set.name] ∧
    (cat.store v).walk v.setup.details.firstClusterOfRootDir ks = some c ∧ cat.Has c i set

theorem Reaches.has {path : List Char} (reaches : v.Reaches cat path c i set) : cat.Has c i set := by
  obtain ⟨_, _, _, has⟩ := reaches
  exact has

/-- What there is under every path. -/
def paths (v : Volume size) (cat : Catalog) : List (List Nat) → Option (Node (List UInt8)) :=
  (cat.store v).look v.setup.details.firstClusterOfRootDir

theorem Catalogued.reaches_iff (shows : v.Catalogued home aside cat) {path : List Char} {x : Node (List UInt8)} :
    v.paths cat (v.setup.upcaseTable.keys path) = some x ↔ (v.setup.upcaseTable.keys path = [] ∧ x = .folder) ∨
      ∃ c i set, v.Reaches cat path c i set ∧ (cat.entry v c i set).node = x := by
  rw [paths, Store.look_eq_some]
  refine or_congr_right ⟨?_, ?_⟩
  · rintro ⟨ks, k, c, split, walked, found⟩
    obtain ⟨e, there, rfl⟩ := Option.map_eq_some_iff.mp found
    obtain ⟨i, set, has, rfl, rfl⟩ := shows.store_iff.mp there
    exact ⟨c, i, set, ⟨ks, split, walked, has⟩, rfl⟩
  · rintro ⟨c, i, set, ⟨ks, split, walked, has⟩, rfl⟩
    exact ⟨ks, _, c, split, walked, Option.map_eq_some_iff.mpr ⟨_, shows.store_iff.mpr ⟨i, set, has, rfl, rfl⟩, rfl⟩⟩

section Edit

variable {v' : Volume size} {list : DirList} {new : Option EntrySet} {cs : List Nat} {k : List Nat}
  {ks : List (List Nat)}
  (shows : v.Catalogued home aside cat)
  (walked : (cat.store v).walk v.setup.details.firstClusterOfRootDir ks = some c)
  (revises : Revises home aside v v' cat c i list new cs) (keyed : v.Keyed cat c i k new)

include shows walked revises keyed

/-- The way to a folder stays when one of its entries is revised. -/
theorem Catalogued.walk_edit :
    ((cat.edit c i list cs).store v').walk v'.setup.details.firstClusterOfRootDir ks = some c := by
  have here := shows.walk_folder ks shows.root walked
  rw [shows.store_edit here revises keyed, revises.changes.details]
  exact Store.walk_put shows.rooted walked

/-- Revising the entry of a file changes what there is under its path. -/
theorem Catalogued.paths_edit (files : ∀ set ∈ new, set.isFolder = false)
    (hollow : ∀ e, cat.store v c k ≠ some (.folder e)) :
    v'.paths (cat.edit c i list cs) =
      Function.update (v.paths cat) (ks ++ [k]) (new.map fun set => .file (set.content v' cs)) := by
  have here := shows.walk_folder ks shows.root walked
  have entry : (new.map fun set => (cat.edit c i list cs).entry v' c i set) = new.map fun set =>
      .file (set.content v' cs) := by
    cases made : new with
    | none => rfl
    | some set =>
      rw [Option.map_some, Option.map_some, Catalog.entry, cat.edit_clusters_self, files set made]
      rfl
  have fresh : (cat.store v).Fresh v.setup.details.firstClusterOfRootDir c
      (new.map fun set => .file (set.content v' cs)) := by
    cases new with
    | none => exact Store.fresh_none ..
    | some set => exact Store.fresh_file ..
  rw [paths, shows.store_edit here revises keyed, revises.changes.details, entry,
    Store.look_put shows.rooted walked fresh fun e there => absurd there (hollow e), Option.map_map]
  rfl

end Edit

end Volume

namespace FileSystem

open Volume

variable {size n : Nat} {home : Nat → CacheKind} {fs : FileSystem size n} {aside : Set Nat} {cat : Catalog}
  {c i fuel : Nat} {set : EntrySet}
  {attributes : Option FileAttributes} {path : List Char}

section Find

variable (sound : fs.Sound home) (shows : (fs.volume home).Catalogued home aside cat)
  (enough : (fs.volume home).mostSlots < fuel)
  (accepts : fs.setup.upcaseTable.Accepts path)

include sound shows enough accepts

theorem find_found (reaches : (fs.volume home).Reaches cat path c i set)
    (fits : ∀ required ∈ attributes, (FileDirEntry.ofRaw set.fileDir).fileAttributes.contains required = true) :
    FileSystem.Leads home (findFileInner fuel path attributes) fs
      (.ok (set.details ((fs.volume home).slotLocation c i))) (fs.volume home) := by
  obtain ⟨ks, split, walked, has⟩ := reaches
  have room := (shows.folder _ shows.root).cell.room
  obtain ⟨parts, lasts, names, rfl, ends⟩ := List.map_eq_append_iff.mp split
  obtain ⟨last, rfl, named⟩ := List.map_eq_singleton_iff.mp ends
  have ok part member := accepts part (names ▸ List.mem_append_left _ member)
  obtain ⟨hashed, accepted⟩ := accepts last (names ▸ List.mem_append_right _ (List.mem_singleton_self last))
  have leaf := shows.leaf attributes parts last shows.root ok
  rw [walked] at leaf
  dsimp only at leaf
  rw [shows.lookup_found accepted has ⟨named.symm, fits⟩, ← names] at leaf
  exact findFileInner_leads room sound shows.layout enough leaf

theorem find_missing (missing : ∀ c i set, (fs.volume home).Reaches cat path c i set →
      ¬ ∀ required ∈ attributes, (FileDirEntry.ofRaw set.fileDir).fileAttributes.contains required = true) :
    FileSystem.Leads home (findFileInner fuel path attributes) fs (.error (.error .fileNotFound))
      (fs.volume home) := by
  have room := (shows.folder _ shows.root).cell.room
  rcases List.eq_nil_or_concat (pathToIter path) with none_ | ⟨parts, last, names⟩
  · have leaf : (fs.volume home).Leaf home attributes (pathToIter path) fs.fs.firstClusterOfRootDir (.ok none) :=
      none_ ▸ .nowhere _
    exact findFileInner_leads room sound shows.layout enough leaf
  · rw [List.concat_eq_append] at names
    have ok part member := accepts part (names ▸ List.mem_append_left _ member)
    obtain ⟨hashed, accepted⟩ := accepts last (names ▸ List.mem_append_right _ (List.mem_singleton_self last))
    have leaf := shows.leaf attributes parts last shows.root ok
    have none_ : (match (((cat.store (fs.volume home)).walk (fs.volume home).setup.details.firstClusterOfRootDir
        (parts.map (fs.volume home).setup.upcaseTable.key))) with
      | some d => (fs.volume home).lookup [d] last attributes
      | none => .ok none) = .ok none := by
      split
      · rename_i d walked
        refine shows.lookup_missing accepted (shows.walk_folder _ shows.root walked) fun i set has named => ?_
        refine missing d i set ⟨_, ?_, walked, has⟩ named.2
        rw [UpcaseTable.keys, names, List.map_append, List.map_singleton, named.1]
      · rfl
    rw [none_, ← names] at leaf
    exact findFileInner_leads room sound shows.layout enough leaf

end Find

end FileSystem

end ExFatSlim
