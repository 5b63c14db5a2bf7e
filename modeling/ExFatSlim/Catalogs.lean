import ExFatSlim.Folders
import ExFatSlim.Lib.Tree
import Mathlib.Data.Finset.Basic

namespace ExFatSlim

namespace EntrySet

/-- The set of a directory. -/
def isFolder (set : EntrySet) : Bool := (FileDirEntry.ofRaw set.fileDir).fileAttributes.contains attrDirectory

def firstCluster (set : EntrySet) : Nat := (StreamExtensionDirEntry.ofRaw set.stream).firstCluster

def dataLength (set : EntrySet) : Nat := (StreamExtensionDirEntry.ofRaw set.stream).dataLength

def validDataLength (set : EntrySet) : Nat := (StreamExtensionDirEntry.ofRaw set.stream).validDataLength

/-- The bytes of a file with clusters `cs`, which reads as zeros past the valid data. -/
def content {size : Nat} (set : EntrySet) (v : Volume size) (cs : List Nat) : List UInt8 :=
  (List.range set.dataLength).map fun i => if i < set.validDataLength then v.fileByte cs i else 0

end EntrySet

/-- The folders of a volume by their clusters, the entries of each folder, and
the clusters of the file with a given number in a folder. -/
structure Catalog where
  folders : Finset Nat
  list : Nat → DirList
  clusters : Nat → Nat → List Nat

namespace Catalog

def Has (cat : Catalog) (c i : Nat) (set : EntrySet) : Prop := c ∈ cat.folders ∧ (i, set) ∈ (cat.list c).sets

/-- The cluster is neither a folder nor one of a file. -/
def Unowned (cat : Catalog) (d : Nat) : Prop := d ∉ cat.folders ∧ ∀ c i, d ∉ cat.clusters c i

variable {size : Nat}

def entry (cat : Catalog) (v : Volume size) (c i : Nat) (set : EntrySet) : Entry Nat (List UInt8) :=
  if set.isFolder then .folder set.firstCluster else .file (set.content v (cat.clusters c i))

/-- What the folders have under every name. -/
def store (cat : Catalog) (v : Volume size) : Store Nat (List Nat) (List UInt8) := fun c k =>
  if c ∈ cat.folders then
    ((cat.list c).sets.find? fun x => decide (v.setup.upcaseTable.key x.2.name = k)).map fun x =>
      cat.entry v c x.1 x.2
  else none

/-- The catalog with other entries in folder `c`, in which entry number `i` has the clusters `cs`. -/
def edit (cat : Catalog) (c i : Nat) (d : DirList) (cs : List Nat) : Catalog where
  folders := cat.folders
  list c' := if c' = c then d else cat.list c'
  clusters c' i' := if c' = c ∧ i' = i then cs else cat.clusters c' i'

/-- The catalog with another folder. -/
def add (cat : Catalog) (c : Nat) (d : DirList) : Catalog :=
  { cat with folders := insert c cat.folders, list := fun c' => if c' = c then d else cat.list c' }

/-- The catalog without a folder. -/
def drop (cat : Catalog) (c : Nat) : Catalog := { cat with folders := cat.folders.erase c }

section Edit

variable (cat : Catalog) (c i : Nat) (d : DirList) (cs : List Nat)

theorem edit_list_self : (cat.edit c i d cs).list c = d := if_pos rfl

theorem edit_list_ne {c' : Nat} (other : c' ≠ c) : (cat.edit c i d cs).list c' = cat.list c' := if_neg other

theorem edit_clusters_self : (cat.edit c i d cs).clusters c i = cs := if_pos ⟨rfl, rfl⟩

theorem edit_clusters_ne {c' i' : Nat} (other : ¬ (c' = c ∧ i' = i)) :
    (cat.edit c i d cs).clusters c' i' = cat.clusters c' i' :=
  if_neg other

end Edit

end Catalog

namespace Volume

variable {size : Nat} {home : Nat → CacheKind} {v v' : Volume size} {aside : Set Nat} {cat : Catalog} {c i : Nat}
  {set : EntrySet}

/-- The set of a file with clusters `cs` that the code can open and read. -/
structure FileEntry (home : Nat → CacheKind) (v : Volume size) (c i : Nat) (set : EntrySet)
    (cs : List Nat) : Prop where
  archive : (FileDirEntry.ofRaw set.fileDir).fileAttributes.contains attrArchive = true
  stores : v.Stores home (set.details (v.slotLocation c i)) cs
  short : set.dataLength < 2 ^ v.setup.usizeBits

/-- The set of a folder of one cluster. -/
structure FolderEntry (v : Volume size) (folders : Finset Nat) (set : EntrySet) : Prop where
  archive : (FileDirEntry.ofRaw set.fileDir).fileAttributes.contains attrArchive = false
  folder : set.firstCluster ∈ folders
  inner : set.firstCluster ≠ v.setup.details.firstClusterOfRootDir
  count : FileSystem.divCeil set.dataLength v.setup.details.clusterLength = 1
  valid : set.validDataLength ≤ set.dataLength

/-- The volume is a tree of folders of one cluster each, as `cat` lists them:
the names in a folder are different, no cluster belongs to two files or
folders, and the clusters in use that belong to none are in `aside`. All
entries but those of the root directory belong to sets. -/
structure Catalogued (home : Nat → CacheKind) (aside : Set Nat) (v : Volume size) (cat : Catalog) : Prop where
  layout : Layout size home v.setup
  past : v.setup.details.clusterHeapOffset + v.setup.bitmap.clusterCount * v.setup.details.sectorsPerCluster < 2 ^ 32
  search : 2 ≤ v.setup.nextSearchCluster
  clocked : v.setup.Clocked
  data : ∀ d, v.InHeap d → v.IsFree d → v.IsData home d
  root : v.setup.details.firstClusterOfRootDir ∈ cat.folders
  folder : ∀ c ∈ cat.folders, v.Folder home c (cat.list c)
  plain : ∀ c ∈ cat.folders, c ≠ v.setup.details.firstClusterOfRootDir → (cat.list c).Plain
  file : ∀ {c i set}, cat.Has c i set → set.isFolder = false → v.FileEntry home c i set (cat.clusters c i)
  inner : ∀ {c i set}, cat.Has c i set → set.isFolder = true → v.FolderEntry cat.folders set
  names : ∀ {c i j set set'}, cat.Has c i set → cat.Has c j set' →
    v.setup.upcaseTable.key set.name = v.setup.upcaseTable.key set'.name → i = j
  once : ∀ {c c' i i' set set'}, cat.Has c i set → cat.Has c' i' set' → set.isFolder = true → set'.isFolder = true →
    set.firstCluster = set'.firstCluster → c = c' ∧ i = i'
  filed : ∀ {c i d}, d ∈ cat.clusters c i → d ∉ cat.folders ∧ ∃ set, cat.Has c i set ∧ set.isFolder = false
  apart : ∀ {c c' i i' d}, d ∈ cat.clusters c i → d ∈ cat.clusters c' i' → c = c' ∧ i = i'
  owned : ∀ d, v.InHeap d → ¬ v.IsFree d → d ∈ aside ∨ d ∈ cat.folders ∨ ∃ c i, d ∈ cat.clusters c i

namespace Catalogued

theorem cell (shows : v.Catalogued home aside cat) {d : Nat} (inHeap : v.InHeap d) (data : v.IsData home d) :
    v.DirCluster home d where
  room := (shows.folder _ shows.root).cell.room
  layout := shows.layout
  inHeap := inHeap
  data := data
  past := by
    have past := shows.past
    have low := inHeap.1
    have high : d < 2 + v.setup.bitmap.clusterCount := inHeap.2
    have block : (d - 2) * v.setup.details.sectorsPerCluster + v.setup.details.sectorsPerCluster ≤
        v.setup.bitmap.clusterCount * v.setup.details.sectorsPerCluster := by
      rw [← Nat.succ_mul]
      exact Nat.mul_le_mul_right _ (by omega)
    rw [dataSector]
    omega

/-- The clusters of a file are those that its set stands for. -/
theorem stores (shows : v.Catalogued home aside cat) {d : Nat} (member : d ∈ cat.clusters c i) :
    ∃ set : EntrySet, v.Stores home (set.details (v.slotLocation c i)) (cat.clusters c i) := by
  obtain ⟨_, set, has, file⟩ := shows.filed member
  exact ⟨set, (shows.file has file).stores⟩

theorem unowned (shows : v.Catalogued home aside cat) {d : Nat} (free : v.IsFree d) : cat.Unowned d :=
  ⟨fun folder => (shows.folder d folder).used free, fun c i member => by
    obtain ⟨set, stores⟩ := shows.stores member
    exact stores.used d member free⟩

theorem has_inj {set' : EntrySet} (first : cat.Has c i set) (second : cat.Has c i set') : set = set' :=
  DirList.sets_inj first.2 second.2

theorem store_iff (shows : v.Catalogued home aside cat) {k : List Nat} {e : Entry Nat (List UInt8)} :
    cat.store v c k = some e ↔
    ∃ i set, cat.Has c i set ∧ v.setup.upcaseTable.key set.name = k ∧ e = cat.entry v c i set := by
  rw [Catalog.store]
  constructor
  · intro found
    split at found
    · rename_i here
      obtain ⟨⟨i, set⟩, first, rfl⟩ := Option.map_eq_some_iff.mp found
      have named := List.find?_some first
      exact ⟨i, set, ⟨here, List.mem_of_find?_eq_some first⟩, of_decide_eq_true named, rfl⟩
    · cases found
  · rintro ⟨i, set, has, rfl, rfl⟩
    rw [if_pos has.1, Option.map_eq_some_iff]
    have some_ : ((cat.list c).sets.find? fun x =>
      decide (v.setup.upcaseTable.key x.2.name = v.setup.upcaseTable.key set.name)).isSome :=
      List.find?_isSome.mpr ⟨(i, set), has.2, decide_eq_true rfl⟩
    obtain ⟨⟨j, other⟩, found⟩ := Option.isSome_iff_exists.mp some_
    have has' : cat.Has c j other := ⟨has.1, List.mem_of_find?_eq_some found⟩
    have named := List.find?_some found
    obtain rfl := shows.names has' has (of_decide_eq_true named)
    obtain rfl := has_inj has' has
    exact ⟨_, found, rfl⟩

theorem content_eq {cs : List Nat} {T : Set Nat} (layout : Layout size home v.setup) (changes : Changes home T v v')
    (stores : v.Stores home (set.details (v.slotLocation c i)) cs) (outside : ∀ d ∈ cs, d ∉ T) :
    set.content v' cs = set.content v cs := by
  refine List.map_congr_left fun j member => ?_
  have before : j < set.dataLength := List.mem_range.mp member
  split
  · have room :=
      le_divCeil_mul (layout.clusterLength ▸ Nat.mul_pos layout.pos layout.sectorsPerCluster) set.dataLength
    have count : cs.length = FileSystem.divCeil set.dataLength v.setup.details.clusterLength := stores.count
    rw [← count] at room
    exact changes.fileByte layout stores.inHeap stores.data outside (by omega)
  · rfl

end Catalogued

/-- Entry number `i` of folder `c` becomes `new`, with the clusters `cs`:
besides the folder only the entry's own clusters and some that belong to no
other file or folder change, and those that it no longer has are free or set aside. -/
structure Revises (home : Nat → CacheKind) (aside : Set Nat) (v v' : Volume size) (cat : Catalog) (c i : Nat)
    (d : DirList)
    (new : Option EntrySet) (cs : List Nat) : Prop where
  changes : Changes home {e | e = c ∨ e ∈ cat.clusters c i ∨ e ∈ cs} v v'
  folder : v'.Folder home c d
  sets : ∀ x, x ∈ d.sets ↔ x ∈ (cat.list c).sets ∧ x.1 ≠ i ∨ x.1 = i ∧ new = some x.2
  plain : c ≠ v.setup.details.firstClusterOfRootDir → d.Plain
  fresh : ∀ e ∈ cs, e ∈ cat.clusters c i ∨ cat.Unowned e
  freed : ∀ e ∈ cat.clusters c i, e ∉ cs → v'.IsFree e ∨ e ∈ aside
  gone : new = none → cs = []
  file : ∀ set ∈ new, set.isFolder = false → v'.FileEntry home c i set cs
  inner : ∀ set ∈ new, set.isFolder = true → v'.FolderEntry cat.folders set ∧ cs = [] ∧
    ∀ c' i' set', cat.Has c' i' set' → set'.isFolder = true → set'.firstCluster = set.firstCluster → c' = c ∧ i' = i

/-- The entry has the key `k` and keeps it, and no other entry of the folder has it. -/
structure Keyed (v : Volume size) (cat : Catalog) (c i : Nat) (k : List Nat) (new : Option EntrySet) : Prop where
  named : ∀ set ∈ new, v.setup.upcaseTable.key set.name = k
  old : ∀ set, cat.Has c i set → v.setup.upcaseTable.key set.name = k
  others : ∀ j set, cat.Has c j set → v.setup.upcaseTable.key set.name = k → j = i

/-- More clusters may be set aside. -/
theorem Revises.mono {d : DirList} {new : Option EntrySet} {cs : List Nat}
    (revises : Revises home ∅ v v' cat c i d new cs) :
    Revises home aside v v' cat c i d new cs :=
  { revises with
    freed := fun e member gone => .inl ((revises.freed e member gone).resolve_right (Set.notMem_empty e)) }

/-- An entry that is there has its own key. -/
theorem Catalogued.keyed (shows : v.Catalogued home aside cat) (has : cat.Has c i set) {new : Option EntrySet}
    (named : ∀ set' ∈ new, v.setup.upcaseTable.key set'.name = v.setup.upcaseTable.key set.name) :
    v.Keyed cat c i (v.setup.upcaseTable.key set.name) new where
  named := named
  old set' has' := by rw [has_inj has' has]
  others j set' has' same := shows.names has' has same

namespace Revises

variable {d : DirList} {new : Option EntrySet} {cs : List Nat}

theorem has_iff (revises : Revises home aside v v' cat c i d new cs) (here : c ∈ cat.folders) {c' i' : Nat}
    {set' : EntrySet} :
    (cat.edit c i d cs).Has c' i' set' ↔ cat.Has c' i' set' ∧ ¬ (c' = c ∧ i' = i) ∨ (c' = c ∧ i' = i) ∧
      new = some set' := by
  rw [Catalog.Has, Catalog.Has]
  by_cases same : c' = c
  · subst same
    rw [Catalog.edit_list_self, revises.sets]
    simp only [Catalog.edit, here, true_and]
  · rw [Catalog.edit_list_ne _ _ _ _ _ same]
    simp only [Catalog.edit, same, false_and, not_false_iff, and_true, or_false]

section Apart

variable (revises : Revises home aside v v' cat c i d new cs) (shows : v.Catalogued home aside cat)
  (here : c ∈ cat.folders)

include revises shows here

/-- The clusters of other files do not change. -/
theorem outside {c' i' : Nat} (other : ¬ (c' = c ∧ i' = i)) :
    ∀ e ∈ cat.clusters c' i', ¬ (e = c ∨ e ∈ cat.clusters c i ∨ e ∈ cs) := by
  intro e member changed
  have old : e ∉ cat.clusters c i := fun old => other (shows.apart member old)
  rcases changed with rfl | here' | new
  · exact (shows.filed member).1 here
  · exact old here'
  · rcases revises.fresh e new with old' | unowned
    · exact old old'
    · exact unowned.2 c' i' member

omit here in
theorem new_not_folder {e : Nat} (member : e ∈ cs) : e ∉ cat.folders := by
  intro folder
  rcases revises.fresh e member with old | unowned
  · exact (shows.filed old).1 folder
  · exact unowned.1 folder

omit here in
/-- Other folders do not change. -/
theorem outside_folder {c' : Nat} (folder : c' ∈ cat.folders) (other : c' ≠ c) :
    ¬ (c' = c ∨ c' ∈ cat.clusters c i ∨ c' ∈ cs) := by
  rintro (same | old | new)
  · exact other same
  · exact (shows.filed old).1 folder
  · exact revises.new_not_folder shows new folder

omit shows here in
theorem new_file {e : Nat} (member : e ∈ cs) : ∃ set, new = some set ∧ set.isFolder = false := by
  rcases made : new with _ | set
  · rw [revises.gone made] at member
    cases member
  · cases kind : set.isFolder with
    | false => exact ⟨set, rfl, kind⟩
    | true =>
      rw [(revises.inner set made kind).2.1] at member
      cases member

theorem entry_kept {c' i' : Nat} {set' : EntrySet} (has : cat.Has c' i' set') (other : ¬ (c' = c ∧ i' = i)) :
    (cat.edit c i d cs).entry v' c' i' set' = cat.entry v c' i' set' := by
  rw [Catalog.entry, Catalog.entry, cat.edit_clusters_ne c i d cs other]
  cases kind : set'.isFolder with
  | true => rw [if_pos rfl, if_pos rfl]
  | false => rw [Catalogued.content_eq shows.layout revises.changes (shows.file has kind).stores
    (revises.outside shows here other)]

omit here in
theorem data_edit {e : Nat} (inHeap : v'.InHeap e) (free : v'.IsFree e) : v'.IsData home e := by
  have changes := revises.changes
  rw [changes.isData]
  rw [changes.inHeap] at inHeap
  by_cases changed : e = c ∨ e ∈ cat.clusters c i ∨ e ∈ cs
  · rcases changed with rfl | old | new
    · exact absurd free revises.folder.used
    · obtain ⟨set, stores⟩ := shows.stores old
      exact stores.data e old
    · obtain ⟨set, made, kind⟩ := revises.new_file new
      exact absurd free ((revises.file set made kind).stores.used e new)
  · exact shows.data e inHeap ((changes.free e inHeap changed).mp free)

omit here in
theorem folder_edit {c' : Nat} (folder : c' ∈ cat.folders) : v'.Folder home c' ((cat.edit c i d cs).list c') := by
  by_cases same : c' = c
  · subst same
    rw [Catalog.edit_list_self]
    exact revises.folder
  · rw [Catalog.edit_list_ne _ _ _ _ _ same]
    exact (shows.folder c' folder).kept revises.changes (revises.outside_folder shows folder same)

omit here in
theorem plain_edit {c' : Nat} (folder : c' ∈ cat.folders) (inner : c' ≠ v'.setup.details.firstClusterOfRootDir) :
    ((cat.edit c i d cs).list c').Plain := by
  rw [revises.changes.details] at inner
  by_cases same : c' = c
  · subst same
    rw [Catalog.edit_list_self]
    exact revises.plain inner
  · rw [Catalog.edit_list_ne _ _ _ _ _ same]
    exact shows.plain c' folder inner

theorem file_edit {c' i' : Nat} {set' : EntrySet} (has : (cat.edit c i d cs).Has c' i' set')
    (kind : set'.isFolder = false) :
    v'.FileEntry home c' i' set' ((cat.edit c i d cs).clusters c' i') := by
  rcases (revises.has_iff here).mp has with ⟨old, other⟩ | ⟨⟨rfl, rfl⟩, new⟩
  · have file := shows.file old kind
    rw [cat.edit_clusters_ne c i d cs other]
    refine ⟨file.archive, ?_, ?_⟩
    · rw [revises.changes.slotLocation]
      exact revises.changes.stores file.stores (revises.outside shows here other)
    · rw [revises.changes.setup]
      exact file.short
  · rw [Catalog.edit_clusters_self]
    exact revises.file set' new kind

theorem inner_edit {c' i' : Nat} {set' : EntrySet} (has : (cat.edit c i d cs).Has c' i' set')
    (kind : set'.isFolder = true) :
    v'.FolderEntry cat.folders set' := by
  rcases (revises.has_iff here).mp has with ⟨old, other⟩ | ⟨_, new⟩
  · obtain ⟨archive, folder, inner, count, valid⟩ := shows.inner old kind
    rw [← revises.changes.details] at inner count
    exact ⟨archive, folder, inner, count, valid⟩
  · exact (revises.inner set' new kind).1

/-- The new entry has a name of its own. -/
theorem names_edit {k : List Nat} (keyed : v.Keyed cat c i k new) {c' i' j' : Nat} {set' set'' : EntrySet}
    (first : (cat.edit c i d cs).Has c' i' set') (second : (cat.edit c i d cs).Has c' j' set'')
    (same : v'.setup.upcaseTable.key set'.name = v'.setup.upcaseTable.key set''.name) : i' = j' := by
  obtain ⟨named, _, others⟩ := keyed
  rw [revises.changes.upcaseTable] at same
  rcases (revises.has_iff here).mp first with ⟨old, other⟩ | ⟨⟨rfl, rfl⟩, new⟩
  · rcases (revises.has_iff here).mp second with ⟨old', other'⟩ | ⟨⟨rfl, rfl⟩, new'⟩
    · exact shows.names old old' same
    · exact others i' set' old (same.trans (named _ new'))
  · rcases (revises.has_iff here).mp second with ⟨old', other'⟩ | ⟨⟨_, rfl⟩, new'⟩
    · exact (others j' set'' old' (same.symm.trans (named _ new))).symm
    · rfl

theorem once_edit {c' c'' i' i'' : Nat} {set' set'' : EntrySet} (first : (cat.edit c i d cs).Has c' i' set')
    (second : (cat.edit c i d cs).Has c'' i'' set'') (kind : set'.isFolder = true) (kind' : set''.isFolder = true)
    (same : set'.firstCluster = set''.firstCluster) : c' = c'' ∧ i' = i'' := by
  rcases (revises.has_iff here).mp first with ⟨old, other⟩ | ⟨⟨rfl, rfl⟩, new⟩
  · rcases (revises.has_iff here).mp second with ⟨old', other'⟩ | ⟨⟨rfl, rfl⟩, new'⟩
    · exact shows.once old old' kind kind' same
    · exact (revises.inner _ new' kind').2.2 _ _ _ old kind same
  · rcases (revises.has_iff here).mp second with ⟨old', other'⟩ | ⟨⟨rfl, rfl⟩, new'⟩
    · have both := (revises.inner _ new kind).2.2 _ _ _ old' kind' same.symm
      exact ⟨both.1.symm, both.2.symm⟩
    · exact ⟨rfl, rfl⟩

theorem filed_edit {c' i' e : Nat} (member : e ∈ (cat.edit c i d cs).clusters c' i') :
    e ∉ cat.folders ∧ ∃ set, (cat.edit c i d cs).Has c' i' set ∧ set.isFolder = false := by
  by_cases same : c' = c ∧ i' = i
  · obtain ⟨rfl, rfl⟩ := same
    rw [Catalog.edit_clusters_self] at member
    obtain ⟨set, new, kind⟩ := revises.new_file member
    exact ⟨revises.new_not_folder shows member, set, (revises.has_iff here).mpr (.inr ⟨⟨rfl, rfl⟩, new⟩), kind⟩
  · rw [cat.edit_clusters_ne c i d cs same] at member
    obtain ⟨outside, set, old, kind⟩ := shows.filed member
    exact ⟨outside, set, (revises.has_iff here).mpr (.inl ⟨old, same⟩), kind⟩

theorem apart_edit {c' c'' i' i'' e : Nat} (first : e ∈ (cat.edit c i d cs).clusters c' i')
    (second : e ∈ (cat.edit c i d cs).clusters c'' i'') : c' = c'' ∧ i' = i'' := by
  by_cases same : c' = c ∧ i' = i
  · obtain ⟨rfl, rfl⟩ := same
    rw [Catalog.edit_clusters_self] at first
    by_cases same' : c'' = c' ∧ i'' = i'
    · exact ⟨same'.1.symm, same'.2.symm⟩
    · rw [cat.edit_clusters_ne c' i' d cs same'] at second
      exact absurd (.inr (.inr first)) (revises.outside shows here same' e second)
  · rw [cat.edit_clusters_ne c i d cs same] at first
    by_cases same' : c'' = c ∧ i'' = i
    · obtain ⟨rfl, rfl⟩ := same'
      rw [Catalog.edit_clusters_self] at second
      exact absurd (.inr (.inr second)) (revises.outside shows here same e first)
    · rw [cat.edit_clusters_ne c i d cs same'] at second
      exact shows.apart first second

/-- What is in use is still accounted for. -/
theorem owned_edit {e : Nat} (inHeap : v'.InHeap e) (used : ¬ v'.IsFree e) :
    e ∈ aside ∨ e ∈ cat.folders ∨ ∃ c' i', e ∈ (cat.edit c i d cs).clusters c' i' := by
  have changes := revises.changes
  rw [changes.inHeap] at inHeap
  by_cases changed : e = c ∨ e ∈ cat.clusters c i ∨ e ∈ cs
  · have new : e ∈ cs → ∃ c' i', e ∈ (cat.edit c i d cs).clusters c' i' := fun member =>
      ⟨c, i, by rw [Catalog.edit_clusters_self]; exact member⟩
    rcases changed with rfl | old | member
    · exact .inr (.inl here)
    · by_cases kept : e ∈ cs
      · exact .inr (.inr (new kept))
      · exact (revises.freed e old kept).elim (fun free => absurd free used) .inl
    · exact .inr (.inr (new member))
  · rcases shows.owned e inHeap fun free => used ((changes.free e inHeap changed).mpr free) with gone | folder |
      ⟨c', i', member⟩
    · exact .inl gone
    · exact .inr (.inl folder)
    · refine .inr (.inr ⟨c', i', ?_⟩)
      rw [cat.edit_clusters_ne]
      · exact member
      · rintro ⟨rfl, rfl⟩
        exact changed (.inr (.inl member))

end Apart

end Revises

/-- Revising an entry keeps the volume a tree of folders. -/
theorem Catalogued.edit {d : DirList} {new : Option EntrySet} {cs : List Nat} {k : List Nat}
    (shows : v.Catalogued home aside cat)
    (here : c ∈ cat.folders) (revises : Revises home aside v v' cat c i d new cs) (keyed : v.Keyed cat c i k new) :
    v'.Catalogued home aside (cat.edit c i d cs) where
  layout := revises.changes.layout shows.layout
  past := by
    rw [revises.changes.details, revises.changes.setup]
    exact shows.past
  search := revises.changes.search shows.search
  clocked := revises.changes.clocked shows.clocked
  data _ := revises.data_edit shows
  root := by
    rw [revises.changes.details]
    exact shows.root
  folder _ := revises.folder_edit shows
  plain _ := revises.plain_edit shows
  file := revises.file_edit shows here
  inner := revises.inner_edit shows here
  names := revises.names_edit shows here keyed
  once := revises.once_edit shows here
  filed := revises.filed_edit shows here
  apart := revises.apart_edit shows here
  owned _ := revises.owned_edit shows here

/-- In the store, revising an entry puts the new one under its name. -/
theorem Catalogued.store_edit {d : DirList} {new : Option EntrySet} {cs : List Nat} {k : List Nat}
    (shows : v.Catalogued home aside cat)
    (here : c ∈ cat.folders) (revises : Revises home aside v v' cat c i d new cs) (keyed : v.Keyed cat c i k new) :
    (cat.edit c i d cs).store v' =
      (cat.store v).put c k (new.map fun set => (cat.edit c i d cs).entry v' c i set) := by
  have shows' := shows.edit here revises keyed
  obtain ⟨named, old, others⟩ := keyed
  have changes := revises.changes
  have table := changes.upcaseTable
  have has {c' i' : Nat} {set' : EntrySet} : (cat.edit c i d cs).Has c' i' set' ↔
      cat.Has c' i' set' ∧ ¬ (c' = c ∧ i' = i) ∨ (c' = c ∧ i' = i) ∧ new = some set' := revises.has_iff here
  funext c' k'
  apply Option.ext
  intro e
  rw [shows'.store_iff, table]
  by_cases target : c' = c ∧ k' = k
  · obtain ⟨rfl, rfl⟩ := target
    rw [Store.put_self, Option.map_eq_some_iff]
    constructor
    · rintro ⟨j, set, has', named', rfl⟩
      rcases has.mp has' with ⟨before, other⟩ | ⟨⟨_, rfl⟩, made⟩
      · exact absurd ⟨rfl, others j set before named'⟩ other
      · exact ⟨set, made, rfl⟩
    · rintro ⟨set, made, rfl⟩
      exact ⟨i, set, has.mpr (.inr ⟨⟨rfl, rfl⟩, made⟩), named set made, rfl⟩
  · rw [Store.put_ne target, shows.store_iff]
    constructor
    · rintro ⟨j, set, has', named', same⟩
      rcases has.mp has' with ⟨before, other⟩ | ⟨⟨rfl, rfl⟩, made⟩
      · exact ⟨j, set, before, named', same.trans (revises.entry_kept shows here before other)⟩
      · exact absurd ⟨rfl, named'.symm.trans (named set made)⟩ target
    · rintro ⟨j, set, before, named', same⟩
      have other : ¬ (c' = c ∧ j = i) := by
        rintro ⟨rfl, rfl⟩
        exact target ⟨rfl, named'.symm.trans (old set before)⟩
      exact ⟨j, set, has.mpr (.inl ⟨before, other⟩), named',
        same.trans (revises.entry_kept shows here before other).symm⟩

/-- Cluster `d`, which is no file's, becomes a folder without entries or stops being one. -/
structure Refolds (home : Nat → CacheKind) (v v' : Volume size) (cat cat' : Catalog) (d : Nat) : Prop where
  changes : Changes home {d} v v'
  clusters : cat'.clusters = cat.clusters
  has : ∀ c i set, cat'.Has c i set ↔ cat.Has c i set
  others : ∀ c, c ≠ d → (c ∈ cat'.folders ↔ c ∈ cat.folders)
  folder : ∀ c ∈ cat'.folders, v'.Folder home c (cat'.list c)
  plain : ∀ c ∈ cat'.folders, c ≠ v.setup.details.firstClusterOfRootDir → (cat'.list c).Plain
  inner : ∀ c i set, cat.Has c i set → set.isFolder = true → set.firstCluster ∈ cat'.folders
  unused : ∀ c i, d ∉ cat.clusters c i
  data : v'.IsFree d → v.IsData home d
  owned : ¬ v'.IsFree d → d ∈ cat'.folders

theorem Catalogued.refold {cat' : Catalog} {d : Nat} (shows : v.Catalogued home aside cat)
    (refolds : Refolds home v v' cat cat' d)
    (root : v.setup.details.firstClusterOfRootDir ∈ cat'.folders) : v'.Catalogued home aside cat' := by
  have changes := refolds.changes
  have outside {c i : Nat} : ∀ e ∈ cat.clusters c i, e ≠ d := fun e member same => refolds.unused c i (same ▸ member)
  refine {
    layout := changes.layout shows.layout
    past := by rw [changes.details, changes.setup]; exact shows.past
    search := changes.search shows.search
    clocked := changes.clocked shows.clocked
    root := by rw [changes.details]; exact root
    folder := refolds.folder
    plain := by rw [changes.details]; exact refolds.plain
    data := ?data
    file := ?file
    inner := ?inner
    names := ?names
    once := ?once
    filed := ?filed
    apart := ?apart
    owned := ?owned }
  case data =>
    intro e inHeap free
    rw [changes.isData]
    by_cases same : e = d
    · exact same ▸ refolds.data (same ▸ free)
    · rw [changes.inHeap] at inHeap
      exact shows.data e inHeap ((changes.free e inHeap same).mp free)
  case file =>
    intro c i set has kind
    have file := shows.file ((refolds.has c i set).mp has) kind
    rw [refolds.clusters]
    refine ⟨file.archive, ?_, ?_⟩
    · rw [changes.slotLocation]
      exact changes.stores file.stores outside
    · rw [changes.setup]
      exact file.short
  case inner =>
    intro c i set has kind
    obtain ⟨archive, _, inner, count, valid⟩ := shows.inner ((refolds.has c i set).mp has) kind
    rw [← changes.details] at inner count
    exact ⟨archive, refolds.inner c i set ((refolds.has c i set).mp has) kind, inner, count, valid⟩
  case names =>
    intro c i j set set' first second same
    rw [changes.upcaseTable] at same
    exact shows.names ((refolds.has c i set).mp first) ((refolds.has c j set').mp second) same
  case once =>
    intro c c' i i' set set' first second
    exact shows.once ((refolds.has c i set).mp first) ((refolds.has c' i' set').mp second)
  case filed =>
    intro c i e member
    rw [refolds.clusters] at member
    obtain ⟨other, set, has, kind⟩ := shows.filed member
    exact ⟨fun folder => other ((refolds.others e (outside e member)).mp folder), set,
      (refolds.has c i set).mpr has, kind⟩
  case apart =>
    intro c c' i i' e first second
    rw [refolds.clusters] at first second
    exact shows.apart first second
  case owned =>
    intro e inHeap used
    rw [changes.inHeap] at inHeap
    rw [refolds.clusters]
    by_cases same : e = d
    · exact .inr (.inl (same ▸ refolds.owned (same ▸ used)))
    · rcases shows.owned e inHeap fun free => used ((changes.free e inHeap same).mpr free) with gone | folder | file
      · exact .inl gone
      · exact .inr (.inl ((refolds.others e same).mpr folder))
      · exact .inr (.inr file)

/-- The store does not show folders without a name. -/
theorem Catalogued.store_refold {cat' : Catalog} {d : Nat} (shows : v.Catalogued home aside cat)
    (refolds : Refolds home v v' cat cat' d)
    (root : v.setup.details.firstClusterOfRootDir ∈ cat'.folders) : cat'.store v' = cat.store v := by
  have shows' := shows.refold refolds root
  have outside {c i : Nat} : ∀ e ∈ cat.clusters c i, e ≠ d := fun e member same => refolds.unused c i (same ▸ member)
  funext c k
  apply Option.ext
  intro e
  rw [shows'.store_iff, shows.store_iff, refolds.changes.upcaseTable]
  refine exists_congr fun i => exists_congr fun set => ?_
  rw [refolds.has]
  refine and_congr_right fun has => and_congr_right fun _ => ?_
  rw [Catalog.entry, Catalog.entry, refolds.clusters]
  cases kind : set.isFolder with
  | true => rw [if_pos rfl, if_pos rfl]
  | false => rw [content_eq shows.layout refolds.changes (shows.file has kind).stores outside]

namespace Catalogued

variable {d : Nat}

/-- A free cluster becomes a folder without entries. -/
theorem add (shows : v.Catalogued home aside cat) {list : DirList} (inHeap : v.InHeap d) (free : v.IsFree d)
    (changes : Changes home {d} v v') (folder : v'.Folder home d list) (empty : list.sets = [])
    (plain : list.Plain) : Refolds home v v' cat (cat.add d list) d where
  changes := changes
  clusters := rfl
  has c i set := by
    rw [Catalog.Has, Catalog.Has]
    by_cases same : c = d
    · subst same
      have fresh : c ∉ cat.folders := fun folder => (shows.folder c folder).used free
      simp [Catalog.add, empty, fresh]
    · simp [Catalog.add, same]
  others c other := Finset.mem_insert.trans (or_iff_right other)
  folder c member := by
    by_cases same : c = d
    · subst same
      simpa only [Catalog.add, if_pos] using folder
    · have old := (shows.folder c (Finset.mem_of_mem_insert_of_ne member same)).kept changes same
      simpa only [Catalog.add, if_neg same] using old
  plain c member inner := by
    by_cases same : c = d
    · subst same
      simpa only [Catalog.add, if_pos] using plain
    · have old := shows.plain c (Finset.mem_of_mem_insert_of_ne member same) inner
      simpa only [Catalog.add, if_neg same] using old
  inner c i set has kind := Finset.mem_insert_of_mem (shows.inner has kind).folder
  unused c i member := by
    obtain ⟨set, stores⟩ := shows.stores member
    exact stores.used d member free
  data _ := shows.data d inHeap free
  owned _ := Finset.mem_insert_self _ _

/-- A folder without entries that has no name is freed. -/
theorem drop (shows : v.Catalogued home aside cat) (folder : d ∈ cat.folders) (empty : (cat.list d).sets = [])
    (unnamed : ∀ c i set, cat.Has c i set → set.isFolder = true → set.firstCluster ≠ d)
    (changes : Changes home {d} v v') (free : v'.IsFree d) : Refolds home v v' cat (cat.drop d) d where
  changes := changes
  clusters := rfl
  has c i set := by
    rw [Catalog.Has, Catalog.Has]
    by_cases same : c = d
    · subst same
      simp [Catalog.drop, empty]
    · simp [Catalog.drop, same]
  others c other := Finset.mem_erase.trans (and_iff_right other)
  folder c member := (shows.folder c (Finset.mem_of_mem_erase member)).kept changes (Finset.ne_of_mem_erase member)
  plain c member := shows.plain c (Finset.mem_of_mem_erase member)
  inner c i set has kind := Finset.mem_erase.mpr ⟨unnamed c i set has kind, (shows.inner has kind).folder⟩
  unused c i member := (shows.filed member).1 folder
  data _ := (shows.folder d folder).cell.data
  owned used := absurd free used

end Catalogued

end Volume

end ExFatSlim
