import ExFatSlim.CatalogCalls

namespace ExFatSlim

namespace Volume

variable {size : Nat} {home : Nat → CacheKind} {v v' : Volume size} {aside : Set Nat} {cat cat' : Catalog}
  {c d i : Nat} {set : EntrySet}

/-- The clusters that are set aside are in use, and belong to no file or folder. -/
def Reserved (v : Volume size) (aside : Set Nat) (cat : Catalog) : Prop :=
  ∀ d ∈ aside, v.InHeap d ∧ ¬ v.IsFree d ∧ cat.Unowned d

/-- There is a path to every folder. -/
def Reachable (v : Volume size) (cat : Catalog) : Prop :=
  ∀ d ∈ cat.folders, ∃ ks, (cat.store v).walk v.setup.details.firstClusterOfRootDir ks = some d

/-- There is nothing in the heap besides the files and folders that paths lead
to, what is set aside, and free clusters. -/
structure Tidy (v : Volume size) (aside : Set Nat) (cat : Catalog) : Prop where
  reachable : v.Reachable cat
  reserved : v.Reserved aside cat

theorem Reserved.edit {list : DirList} {new : Option EntrySet} {cs : List Nat} {T : Set Nat}
    (reserved : v.Reserved aside cat)
    (here : c ∈ cat.folders) (revises : Revises home T v v' cat c i list new cs) (apart : ∀ e ∈ cs, e ∉ aside) :
    v'.Reserved aside (cat.edit c i list cs) := by
  intro e member
  obtain ⟨inHeap, used, other, unowned⟩ := reserved e member
  have changes := revises.changes
  have outside : ¬ (e = c ∨ e ∈ cat.clusters c i ∨ e ∈ cs) := by
    rintro (rfl | old | new)
    · exact other here
    · exact unowned c i old
    · exact apart e new member
  refine ⟨changes.inHeap.mpr inHeap, fun free => used ((changes.free e inHeap outside).mp free), other,
    fun c' i' has => ?_⟩
  by_cases same : c' = c ∧ i' = i
  · obtain ⟨rfl, rfl⟩ := same
    rw [Catalog.edit_clusters_self] at has
    exact apart e has member
  · rw [Catalog.edit_clusters_ne _ _ _ _ _ same] at has
    exact unowned c' i' has

theorem Reserved.refold (reserved : v.Reserved aside cat) (refolds : Refolds home v v' cat cat' d)
    (other : d ∉ aside) :
    v'.Reserved aside cat' := by
  intro e member
  obtain ⟨inHeap, used, folder, unowned⟩ := reserved e member
  have outside : e ≠ d := fun same => other (same ▸ member)
  have changes := refolds.changes
  refine ⟨changes.inHeap.mpr inHeap, fun free => used ((changes.free e inHeap outside).mp free), fun there => ?_,
    fun c i => ?_⟩
  · exact folder ((refolds.others e outside).mp there)
  · rw [refolds.clusters]
    exact unowned c i

/-- Revising the entry of a file leaves the way to every folder. -/
theorem Reachable.edit {list : DirList} {new : Option EntrySet} {cs : List Nat} {k : List Nat}
    (reachable : v.Reachable cat)
    (shows : v.Catalogued home aside cat) (here : c ∈ cat.folders)
    (revises : Revises home aside v v' cat c i list new cs)
    (keyed : v.Keyed cat c i k new) (old : ∀ e, cat.store v c k ≠ some (.folder e)) :
    v'.Reachable (cat.edit c i list cs) := by
  intro d folder
  obtain ⟨ks, walked⟩ := reachable d folder
  refine ⟨ks, ?_⟩
  rw [shows.store_edit here revises keyed, revises.changes.details]
  refine Store.walk_mono (fun c' k' e there => ?_) walked
  rw [Store.put_ne]
  · exact there
  · rintro ⟨rfl, rfl⟩
    exact old e there

/-- What `v` has become, and what it lists now. -/
structure Becomes (home : Nat → CacheKind) (aside : Set Nat) (v v' : Volume size) (cat cat' : Catalog) : Prop where
  catalogued : v'.Catalogued home aside cat'
  tidy : v.Tidy aside cat → v'.Tidy aside cat'
  setup : v'.setup = { v.setup with nextSearchCluster := v'.setup.nextSearchCluster, clock := v'.setup.clock }

theorem Becomes.trans {v'' : Volume size} {cat'' : Catalog} (first : Becomes home aside v v' cat cat')
    (second : Becomes home aside v' v'' cat' cat'') : Becomes home aside v v'' cat cat'' :=
  ⟨second.catalogued, fun tidy => second.tidy (first.tidy tidy), by rw [second.setup, first.setup]⟩

theorem Becomes.details (becomes : Becomes home aside v v' cat cat') : v'.setup.details = v.setup.details := by
  rw [becomes.setup]

theorem Becomes.upcaseTable (becomes : Becomes home aside v v' cat cat') :
    v'.setup.upcaseTable = v.setup.upcaseTable := by rw [becomes.setup]

theorem Becomes.usizeBits (becomes : Becomes home aside v v' cat cat') : v'.setup.usizeBits = v.setup.usizeBits := by
  rw [becomes.setup]

theorem Becomes.shown {n : Nat} {fs fs' : FileSystem size n}
    (becomes : Becomes home aside (fs.volume home) v' cat cat')
    (shown : fs'.volume home = v') : fs'.fs.clusterLength = fs.fs.clusterLength ∧ fs'.usizeBits = fs.usizeBits := by
  subst shown
  exact ⟨congrArg FileSystemDetails.clusterLength becomes.details, becomes.usizeBits⟩

section Edit

variable {list : DirList} {new : Option EntrySet} {cs ks : List Nat} {path : List Char}
  (shows : v.Catalogued home aside cat)
  (reaches : v.Reaches cat path c i set) (revises : Revises home ∅ v v' cat c i list new cs)
  (named : ∀ set' ∈ new, set'.name = set.name)

include shows reaches

theorem Reaches.hollow (file : set.isFolder = false) (e : Nat) :
    cat.store v c (v.setup.upcaseTable.key set.name) ≠ some (.folder e) := by
  intro there
  obtain ⟨j, other, has, named, folder, _⟩ := shows.store_folder.mp there
  obtain rfl := shows.names has reaches.has named
  rw [Catalogued.has_inj has reaches.has, file] at folder
  cases folder

include named

theorem Reaches.keyed : v.Keyed cat c i (v.setup.upcaseTable.key set.name) new :=
  shows.keyed reaches.has fun set' made => congrArg v.setup.upcaseTable.key (named set' made)

include revises

theorem Reaches.becomes (file : set.isFolder = false) (fresh : ∀ e ∈ cs, v.IsFree e) :
    Becomes home aside v v' cat (cat.edit c i list cs) where
  catalogued := shows.edit reaches.has.1 revises.mono (reaches.keyed shows named)
  tidy tidy := ⟨tidy.reachable.edit shows reaches.has.1 revises.mono (reaches.keyed shows named)
    (reaches.hollow shows file),
    tidy.reserved.edit reaches.has.1 revises fun e member gone => (tidy.reserved e gone).2.1 (fresh e member)⟩
  setup := revises.changes.setup

/-- Revising a file changes what there is under its path. -/
theorem Reaches.paths (file : set.isFolder = false) (files : ∀ set' ∈ new, set'.isFolder = false) :
    v'.paths (cat.edit c i list cs) = Function.update (v.paths cat) (v.setup.upcaseTable.keys path)
      (new.map fun set' => .file (set'.content v' cs)) := by
  have keyed := reaches.keyed shows named
  have hollow := reaches.hollow shows file
  obtain ⟨ks, split, walked, has⟩ := reaches
  rw [split]
  exact shows.paths_edit walked revises.mono keyed files hollow

/-- The path still leads there when the entry stays under its name. -/
theorem Reaches.revised {set' : EntrySet} (stays : new = some set') :
    v'.Reaches (cat.edit c i list cs) path c i set' := by
  have keyed := reaches.keyed shows named
  obtain ⟨ks, split, walked, has⟩ := reaches
  refine ⟨ks, ?_, shows.walk_edit walked revises.mono keyed, (revises.has_iff has.1).mpr (.inr ⟨⟨rfl, rfl⟩, stays⟩)⟩
  rw [revises.changes.upcaseTable, split, named set' stays]

end Edit

end Volume

end ExFatSlim
