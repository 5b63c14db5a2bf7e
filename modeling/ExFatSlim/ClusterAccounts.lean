import ExFatSlim.PathRuns
import Mathlib.Data.Set.Card

namespace ExFatSlim

/-- What the tree takes of a volume, as pairs of a path and a number: one
cluster for a folder, and for a file as many as its contents need. -/
def PathTree.takes (P : PathTree) (clusterLength : Nat) : Set (List (List Nat) × Nat) := {x | match P x.1 with
  | some .folder => x.2 = 0
  | some (.file content) => x.2 < FileSystem.divCeil content.length clusterLength
  | none => False}

namespace Volume

variable {size : Nat} {home : Nat → CacheKind} {v : Volume size} {aside : Set Nat} {cat : Catalog} {c d d' i : Nat}
  {set : EntrySet}
  {x x' : List (List Nat) × Nat}

/-- Cluster `d` is the one with number `x.2` of what is under the path `x.1`. -/
inductive Serves (v : Volume size) (cat : Catalog) : List (List Nat) × Nat → Nat → Prop
  | folder {ks : List (List Nat)} {d : Nat} :
    (cat.store v).walk v.setup.details.firstClusterOfRootDir ks = some d → Serves v cat (ks, 0) d
  | file {ks : List (List Nat)} {c i j d : Nat} {set : EntrySet} :
    (cat.store v).walk v.setup.details.firstClusterOfRootDir ks = some c → cat.Has c i set → set.isFolder = false →
    (cat.clusters c i)[j]? = some d → Serves v cat (ks ++ [v.setup.upcaseTable.key set.name], j) d

section Serves

variable (shows : v.Catalogued home aside cat)

include shows

theorem paths_file {ks : List (List Nat)}
    (walked : (cat.store v).walk v.setup.details.firstClusterOfRootDir ks = some c)
    (has : cat.Has c i set) (file : set.isFolder = false) :
    v.paths cat (ks ++ [v.setup.upcaseTable.key set.name]) = some (.file (set.content v (cat.clusters c i))) := by
  rw [paths, Store.look_snoc walked, shows.store_iff.mpr ⟨i, set, has, rfl, rfl⟩, Option.map_some, entry_file file]

/-- A file has as many clusters as its contents need. -/
theorem length_clusters (has : cat.Has c i set) (file : set.isFolder = false) : (cat.clusters c i).length =
    FileSystem.divCeil (set.content v (cat.clusters c i)).length v.setup.details.clusterLength := by
  rw [EntrySet.content, List.length_map, List.length_range]
  exact (shows.file has file).stores.count

theorem Serves.takes (serves : v.Serves cat x d) :
    x ∈ PathTree.takes (v.paths cat) v.setup.details.clusterLength := by
  cases serves with
  | @folder ks d walked =>
    have there : v.paths cat ks = some .folder := (Store.look_eq_folder ks _).mpr ⟨d, walked⟩
    rw [PathTree.takes, Set.mem_ofPred_eq, there]
  | file walked has file at_ =>
    rw [PathTree.takes, Set.mem_ofPred_eq, paths_file shows walked has file]
    dsimp only
    rw [← length_clusters shows has file]
    exact (List.getElem?_eq_some_iff.mp at_).1

theorem exists_serves (taken : x ∈ PathTree.takes (v.paths cat) v.setup.details.clusterLength) :
    ∃ d, v.Serves cat x d := by
  obtain ⟨path, j⟩ := x
  rw [PathTree.takes, Set.mem_ofPred_eq] at taken
  dsimp only at taken
  split at taken
  · rename_i there
    obtain ⟨d, walked⟩ := (Store.look_eq_folder path _).mp there
    subst taken
    exact ⟨d, .folder walked⟩
  · rename_i content there
    rw [paths, Store.look_eq_some] at there
    rcases there with ⟨_, other⟩ | ⟨ks, k, c, rfl, walked, found⟩
    · cases other
    · obtain ⟨e, found, node⟩ := Option.map_eq_some_iff.mp found
      obtain ⟨i, set, has, rfl, rfl⟩ := shows.store_iff.mp found
      cases kind : set.isFolder with
      | true => cases (entry_folder kind).symm.trans node
      | false =>
        rw [← Node.file.inj ((entry_file kind).symm.trans node), ← length_clusters shows has kind] at taken
        exact ⟨_, .file walked has kind (List.getElem?_eq_getElem taken)⟩
  · exact taken.elim

/-- Every number under a path stands for one cluster. -/
theorem Serves.eq (first : v.Serves cat x d) (second : v.Serves cat x d') : d = d' := by
  obtain ⟨path, j⟩ := x
  generalize whole : (path, j) = x at second
  cases first with
  | folder walked =>
    cases second with
    | folder walked' =>
      cases whole
      exact Option.some.inj (walked.symm.trans walked')
    | file walked' has file at_ =>
      cases whole
      have there := paths_file shows walked' has file
      rw [paths, (Store.look_eq_folder _ _).mpr ⟨d, walked⟩] at there
      cases there
  | file walked has file at_ =>
    cases second with
    | folder walked' =>
      cases whole
      have there := paths_file shows walked has file
      rw [paths, (Store.look_eq_folder _ _).mpr ⟨d', walked'⟩] at there
      cases there
    | file walked' has' file' at' =>
      obtain ⟨split, rfl⟩ := Prod.mk.inj whole
      obtain ⟨rfl, last⟩ := List.append_inj' split rfl
      obtain rfl := Option.some.inj (walked.symm.trans walked')
      obtain rfl := shows.names has has' (List.head_eq_of_cons_eq last)
      exact Option.some.inj (at_.symm.trans at')

/-- A cluster serves one path only, and has one number there. -/
theorem Serves.inj (first : v.Serves cat x d) (second : v.Serves cat x' d) : x = x' := by
  cases first with
  | folder walked =>
    cases second with
    | folder walked' => rw [shows.rooted.walk_inj walked walked']
    | file _ _ _ at_ =>
      exact absurd (shows.walk_folder _ shows.root walked) (shows.filed (List.mem_of_getElem? at_)).1
  | file walked has file at_ =>
    cases second with
    | folder walked' =>
      exact absurd (shows.walk_folder _ shows.root walked') (shows.filed (List.mem_of_getElem? at_)).1
    | file walked' has' file' at' =>
      obtain ⟨rfl, rfl⟩ := shows.apart (List.mem_of_getElem? at_) (List.mem_of_getElem? at')
      obtain rfl := Catalogued.has_inj has has'
      obtain rfl := shows.rooted.walk_inj walked walked'
      have distinct := (shows.file has file).stores.distinct
      rw [(List.getElem?_inj (List.getElem?_eq_some_iff.mp at_).1 distinct).mp (at_.trans at'.symm)]

omit shows in
/-- The clusters of files and folders. -/
def owned (cat : Catalog) : Set Nat := {d | d ∈ cat.folders ∨ ∃ c i, d ∈ cat.clusters c i}

theorem Serves.owned (serves : v.Serves cat x d) : d ∈ owned cat := by
  cases serves with
  | folder walked => exact .inl (shows.walk_folder _ shows.root walked)
  | file walked has file at_ => exact .inr ⟨_, _, List.mem_of_getElem? at_⟩

/-- Every cluster of a file or folder serves a path. -/
theorem serves_of_owned (tidy : v.Tidy aside cat) (owned : d ∈ owned cat) : ∃ x, v.Serves cat x d := by
  rcases owned with folder | ⟨c, i, member⟩
  · obtain ⟨ks, walked⟩ := tidy.reachable d folder
    exact ⟨_, .folder walked⟩
  · obtain ⟨_, set, has, file⟩ := shows.filed member
    obtain ⟨ks, walked⟩ := tidy.reachable c has.1
    obtain ⟨j, at_⟩ := List.getElem?_of_mem member
    exact ⟨_, .file walked has file at_⟩

theorem ncard_takes (tidy : v.Tidy aside cat) :
    (PathTree.takes (v.paths cat) v.setup.details.clusterLength).ncard = (owned cat).ncard := by
  choose cluster serves using fun x (taken : x ∈ PathTree.takes (v.paths cat) v.setup.details.clusterLength) =>
    exists_serves shows taken
  refine Set.ncard_congr cluster (fun x taken => (serves x taken).owned shows) (fun x x' taken taken' same => ?_)
    fun d member => ?_
  · exact (serves x taken).inj shows (same ▸ serves x' taken')
  · obtain ⟨x, served⟩ := serves_of_owned shows tidy member
    exact ⟨x, served.takes shows, (serves x (served.takes shows)).eq shows served⟩

/-- Every cluster of the heap is free, or set aside, or one that the tree takes. -/
theorem clusters_accounted (tidy : v.Tidy aside cat) : v.freeClusters.card +
    (PathTree.takes (v.paths cat) v.setup.details.clusterLength).ncard + aside.ncard =
      v.setup.bitmap.clusterCount := by
  have heap (T : Set Nat) (inside : ∀ d ∈ T, v.InHeap d) : T.Finite :=
    (Finset.Ico 2 v.endCluster).finite_toSet.subset fun d member =>
      Finset.mem_coe.mpr (Finset.mem_Ico.mpr (inside d member))
  have inHeap : ∀ d ∈ owned cat, v.InHeap d := by
    rintro d (folder | ⟨c, i, member⟩)
    · exact (shows.folder d folder).cell.inHeap
    · exact shows.clusters_inHeap member
  have used : ∀ d ∈ owned cat, ¬ v.IsFree d := by
    rintro d (folder | ⟨c, i, member⟩)
    · exact (shows.folder d folder).used
    · obtain ⟨set, stores⟩ := shows.stores member
      exact stores.used d member
  have whole : (Finset.Ico 2 v.endCluster : Set Nat) = ↑v.freeClusters ∪ owned cat ∪ aside := by
    ext d
    rw [Finset.mem_coe, Finset.mem_Ico, Set.mem_union, Set.mem_union, Finset.mem_coe, mem_freeClusters]
    constructor
    · intro here
      by_cases free : v.IsFree d
      · exact .inl (.inl ⟨here, free⟩)
      · exact (shows.owned d here free).elim .inr fun mine => .inl (.inr mine)
    · rintro ((⟨here, _⟩ | mine) | gone)
      · exact here
      · exact inHeap d mine
      · exact (tidy.reserved d gone).1
  have apart : Disjoint (v.freeClusters : Set Nat) (owned cat) := Set.disjoint_left.mpr fun d free mine =>
    used d mine (mem_freeClusters.mp free).2
  have apart' : Disjoint (↑v.freeClusters ∪ owned cat) aside := by
    rw [Set.disjoint_left]
    rintro d (free | folder | ⟨c, i, member⟩) gone
    · exact (tidy.reserved d gone).2.1 (mem_freeClusters.mp free).2
    · exact (tidy.reserved d gone).2.2.1 folder
    · exact (tidy.reserved d gone).2.2.2 c i member
  have finite := heap _ inHeap
  have count := congrArg Set.ncard whole
  rw [Set.ncard_union_eq apart' (v.freeClusters.finite_toSet.union finite)
    (heap _ fun d gone => (tidy.reserved d gone).1),
    Set.ncard_union_eq apart v.freeClusters.finite_toSet finite, Set.ncard_coe_finset, Set.ncard_coe_finset,
      Nat.card_Ico,
    endCluster, Nat.add_sub_cancel_left] at count
  rw [ncard_takes shows tidy, count]

end Serves

end Volume

namespace Mounted

variable {size n fuel : Nat} {home : Nat → CacheKind} {aside : Set Nat} {base : Setup} {cause : DeviceError}
  {s : Mounted size n}
  {P : PathTree}

theorem Presents.accounted (presents : s.Presents home aside base fuel P) :
    (s.fileSystem.volume home).freeClusters.card +
    (P.takes base.details.clusterLength).ncard + aside.ncard = base.bitmap.clusterCount := by
  obtain ⟨cat, shows, tidy, setup, rfl⟩ := presents
  have accounted := Volume.clusters_accounted shows.catalogued tidy
  rw [show (s.fileSystem.volume home).setup = s.fileSystem.setup from rfl, setup] at accounted
  exact accounted

/-- However the requests of a run change the tree, no cluster is lost: as many
are free in the end as the tree does not take then, besides those that were set
aside from the start. -/
theorem serve_accounts_clusters (presents : s.Presents home aside base fuel P) {ops : List PathOp}
    (admitted : (PathOp.serve fuel cause).Guards (PathTree.step base.upcaseTable) (PathOp.Admits home) ops s P) :
    (((PathOp.serve fuel cause).run ops s).2.fileSystem.volume home).freeClusters.card +
      (((PathTree.step base.upcaseTable).run ops P).2.takes base.details.clusterLength).ncard + aside.ncard =
        base.bitmap.clusterCount :=
  Presents.accounted ((serve_follows home aside base fuel cause).run ops presents admitted).2

theorem serve_accounts_clusters_bare :
    (((PathOp.serve 200 ⟨0, false⟩).run bareOps blankMounted).2.fileSystem.volume File.smallHome).freeClusters.card +
      (((PathTree.step blankVolume.setup.upcaseTable).run bareOps .bare).2.takes
        blankVolume.setup.details.clusterLength).ncard +
      (∅ : Set Nat).ncard = blankVolume.setup.bitmap.clusterCount :=
  serve_accounts_clusters blankMounted_presents bareOps_admitted

end Mounted

end ExFatSlim
