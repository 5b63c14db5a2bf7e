import ExFatSlim.CatalogPaths
import ExFatSlim.FolderEdits

namespace ExFatSlim

namespace EntrySet

variable {set : EntrySet} {file stream : RawDirEntry}

theorem attributes_replace (replaces : set.Replaces file stream)
    (attributes : (FileDirEntry.ofRaw file).fileAttributes = (FileDirEntry.ofRaw set.fileDir).fileAttributes) :
    (FileDirEntry.ofRaw (set.replace replaces).fileDir).fileAttributes =
      (FileDirEntry.ofRaw set.fileDir).fileAttributes := by
  rw [ofRaw_replace, ← attributes]

end EntrySet

namespace Volume

variable {size : Nat} {home : Nat → CacheKind} {v v₁ v' : Volume size} {aside : Set Nat} {cat : Catalog} {c i : Nat}
  {set : EntrySet}
  {cs : List Nat}

namespace Catalogued

section Edits

variable (shows : v.Catalogued home aside cat)

include shows

/-- A folder is not one of the clusters of a file. -/
theorem folder_apart (here : c ∈ cat.folders) (i : Nat) : c ∉ cat.clusters c i :=
  fun member => (shows.filed member).1 here

/-- Where there is no entry there are no clusters. -/
theorem clusters_nil (vacant : ∀ set, ¬ cat.Has c i set) : cat.clusters c i = [] := by
  refine List.eq_nil_iff_forall_not_mem.mpr fun e member => ?_
  obtain ⟨_, set, has, _⟩ := shows.filed member
  exact vacant set has

/-- Nor are there any where the entry of a folder is. -/
theorem clusters_folder (has : cat.Has c i set) (kind : set.isFolder = true) : cat.clusters c i = [] := by
  refine List.eq_nil_iff_forall_not_mem.mpr fun e member => ?_
  obtain ⟨_, set', has', kind'⟩ := shows.filed member
  rw [has_inj has' has, kind] at kind'
  cases kind'

theorem clusters_inHeap {e : Nat} (member : e ∈ cat.clusters c i) : v.InHeap e := by
  obtain ⟨set, stores⟩ := shows.stores member
  exact stores.inHeap e member

/-- An entry is marked unused, and its clusters are free. -/
theorem removes (has : cat.Has c i set) (freed : Freed home (cat.clusters c i) v v₁) :
    ∃ d, Revises home ∅ v (putEntries c i (set.raws.map cleared) v₁) cat c i d none [] := by
  have folder := shows.folder c has.1
  have apart := shows.folder_apart has.1 i
  obtain ⟨d, edits, folder', changes⟩ := folder.clears has.2
  have inside := edits.inside
  rw [folder.length] at inside
  have freed' := freed.putEntries folder.cell inside
  exact ⟨d, {
    changes := (changes.trans freed'.changes).mono fun e => by
      rintro (same | member)
      · exact .inl same
      · exact .inr (.inl member)
    folder := folder'.kept freed'.changes apart
    sets := edits.sets
    plain := fun inner => edits.plain (shows.plain c has.1 inner)
    fresh := fun e member => by cases member
    freed := fun e member _ =>
      .inl ((freed'.free e (changes.inHeap.mpr (shows.clusters_inHeap member))).mpr (.inr member))
    gone := fun _ => rfl
    file := fun set none_ => by cases none_
    inner := fun set none_ => by cases none_ }⟩

/-- The entry of a file is rewritten, after what is now in its clusters has
been written, and the clusters that it had before are freed. -/
theorem rewrites (has : cat.Has c i set) (kind : set.isFolder = false) {file stream : RawDirEntry}
    (replaces : set.Replaces file stream)
    (hash : (StreamExtensionDirEntry.ofRaw stream).nameHash = (StreamExtensionDirEntry.ofRaw set.stream).nameHash)
    (attributes : (FileDirEntry.ofRaw file).fileAttributes = (FileDirEntry.ofRaw set.fileDir).fileAttributes)
    (created : (FileDirEntry.ofRaw file).created = (FileDirEntry.ofRaw set.fileDir).created)
    (before : Changes home {e | e ∈ cs} v v₁) (fresh : ∀ e ∈ cs, cat.Unowned e)
    (freed : Freed home (cat.clusters c i) (v₁.updateSet c i set file stream) v')
    (stores : v'.Stores home ((set.replace replaces).details (v.slotLocation c i)) cs)
    (short : (set.replace replaces).dataLength < 2 ^ v.setup.usizeBits) :
    ∃ d, Revises home ∅ v v' cat c i d (some (set.replace replaces)) cs := by
  have folder := shows.folder c has.1
  have apart := shows.folder_apart has.1 i
  have same := EntrySet.attributes_replace replaces attributes
  obtain ⟨d, edits, folder', changes⟩ :=
    folder.rewrites has.2 replaces hash attributes created before fun member => (fresh c member).1 has.1
  have all := changes.trans freed.changes
  exact ⟨d, {
    changes := all.mono fun e => by
      rintro ((new | same) | old)
      · exact .inr (.inr new)
      · exact .inl same
      · exact .inr (.inl old)
    folder := folder'.kept freed.changes apart
    sets := edits.sets
    plain := fun inner => edits.plain (shows.plain c has.1 inner)
    fresh := fun e member => .inr (fresh e member)
    freed := fun e member _ =>
      .inl ((freed.free e (changes.inHeap.mpr (shows.clusters_inHeap member))).mpr (.inr member))
    gone := fun none_ => by cases none_
    file := by
      rintro _ ⟨⟩ _
      refine ⟨?_, ?_, ?_⟩
      · rw [same]
        exact (shows.file has kind).archive
      · rw [all.slotLocation]
        exact stores
      · rw [all.setup]
        exact short
    inner := by
      rintro _ ⟨⟩ folder
      rw [EntrySet.isFolder, same] at folder
      rw [EntrySet.isFolder, folder] at kind
      cases kind }⟩

/-- A new entry is written to empty entries of a folder. -/
theorem inserts (here : c ∈ cat.folders) (run : EmptyRun (cat.list c).raws i set.raws.length)
    (bounded : Bounded (cat.list c).raws i)
    (hashed : set.Hashed v.setup.upcaseTable) (fresh : ∀ e ∈ cs, cat.Unowned e)
    (file : set.isFolder = false → (putEntries c i set.raws v.tick).FileEntry home c i set cs)
    (inner : set.isFolder = true → (putEntries c i set.raws v.tick).FolderEntry cat.folders set ∧ cs = [] ∧
      ∀ c' i' set', cat.Has c' i' set' → set'.isFolder = true → set'.firstCluster ≠ set.firstCluster) :
    (∃ d, Revises home ∅ v (putEntries c i set.raws v.tick) cat c i d (some set) cs) ∧ ∀ set',
      ¬ cat.Has c i set' := by
  obtain ⟨d, edits, vacant, folder, changes⟩ := (shows.folder c here).inserts run bounded hashed
  have vacant' : ∀ set', ¬ cat.Has c i set' := fun set' has => vacant _ has.2 rfl
  refine ⟨⟨d, {
    changes := changes.mono fun e same => .inl same
    folder := folder
    sets := edits.sets
    plain := fun inner => edits.plain (shows.plain c here inner)
    fresh := fun e member => .inr (fresh e member)
    freed := fun e member => by
      rw [shows.clusters_nil vacant'] at member
      cases member
    gone := fun none_ => by cases none_
    file := by
      rintro _ ⟨⟩
      exact file
    inner := by
      rintro _ ⟨⟩ kind
      obtain ⟨entry, none_, once⟩ := inner kind
      exact ⟨entry, none_, fun c' i' set' has kind' same => absurd same (once c' i' set' has kind')⟩ }⟩, vacant'⟩

omit shows in
/-- A new entry has a key of its own. -/
theorem keyed_new (vacant : ∀ set, ¬ cat.Has c i set)
    (absent : ∀ j set', cat.Has c j set' → v.setup.upcaseTable.key set'.name ≠ v.setup.upcaseTable.key set.name) :
    v.Keyed cat c i (v.setup.upcaseTable.key set.name) (some set) where
  named := by
    rintro _ ⟨⟩
    rfl
  old set' has := absurd has (vacant set')
  others j set' has same := absurd same (absent j set' has)

end Edits

end Catalogued

end Volume

end ExFatSlim
