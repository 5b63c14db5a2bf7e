import ExFatSlim.Folders

namespace ExFatSlim

namespace Volume

variable {size : Nat} {home : Nat → CacheKind} {v v₁ v' : Volume size} {c i : Nat} {cs : List Nat} {T : Set Nat}

theorem putEntry_data (data : ∀ s, home s = .data → v₁.sectors s = v.sectors s) (place : Location)
    (raw : RawDirEntry) :
    ∀ s, home s = .data → (v₁.putEntry place raw).sectors s = (v.putEntry place raw).sectors s := by
  intro s here
  rw [putEntry, putEntry]
  by_cases same : s = place.sectorId
  · subst same
    rw [store_sectors_self, store_sectors_self, data _ here]
  · rw [store_sectors_ne _ same, store_sectors_ne _ same, data s here]

theorem putEntries_data (raws : List RawDirEntry) : ∀ {k : Nat} {v v₁ : Volume size}, v₁.setup = v.setup →
    (∀ s, home s = .data → v₁.sectors s = v.sectors s) →
    ∀ s, home s = .data → (putEntries c k raws v₁).sectors s = (putEntries c k raws v).sectors s := by
  induction raws with
  | nil => exact fun _ data => data
  | cons raw raws ih =>
    intro k v v₁ setup data
    rw [putEntries, putEntries, slotLocation_of_setup setup]
    exact ih (by rw [putEntry_setup, putEntry_setup, setup]) (putEntry_data data _ raw)

/-- It makes no difference whether entries are put before or after clusters are freed. -/
theorem Freed.putEntries (freed : Freed home cs v v₁) (cell : v.DirCluster home c) {raws : List RawDirEntry}
    (inside : i + raws.length ≤ v.clusterSlots) :
    Freed home cs (Volume.putEntries c i raws v) (Volume.putEntries c i raws v₁) := by
  have before : Edited home v (Volume.putEntries c i raws v) :=
    putEntries_edited raws fun j within => cell.home_eq (by omega)
  have after : Edited home v₁ (Volume.putEntries c i raws v₁) := by
    refine putEntries_edited raws fun j within => ?_
    rw [slotLocation_of_setup freed.setup]
    exact cell.home_eq (by omega)
  have layout : Layout size home v₁.setup := freed.setup ▸ cell.layout
  have heap {e : Nat} : (Volume.putEntries c i raws v).InHeap e ↔ v.InHeap e := by
    rw [InHeap, InHeap, endCluster, endCluster, putEntries_setup]
  refine ⟨by rw [putEntries_setup, putEntries_setup, freed.setup], putEntries_data raws freed.setup freed.data,
    fun e inHeap => ?_,
    fun e inHeap outside => ?_⟩
  · rw [heap] at inHeap
    rw [after.isFree layout (freed.inHeap.mpr inHeap), before.isFree cell.layout inHeap]
    exact freed.free e inHeap
  · rw [heap] at inHeap
    rw [after.fatEntry layout (freed.inHeap.mpr inHeap), before.fatEntry cell.layout inHeap]
    exact freed.entries e inHeap outside

namespace Folder

variable {d : DirList} {set : EntrySet}

section Edits

variable (folder : v.Folder home c d)

include folder

/-- A set of the folder is marked unused. -/
theorem clears (member : (i, set) ∈ d.sets) : ∃ d', d.Edits d' i (set.raws.map cleared) none ∧
    (Volume.putEntries c i (set.raws.map cleared) v).Folder home c d' ∧
    Changes home {c} v (Volume.putEntries c i (set.raws.map cleared) v) := by
  obtain ⟨d', edits⟩ := DirList.exists_remove member
  have inside := edits.inside
  rw [folder.length] at inside
  exact ⟨d', edits, folder.putEntries edits (fun set none_ => by cases none_),
    folder.cell.putEntries_changes _ inside⟩

/-- A set is written to empty entries of the folder. -/
theorem inserts (run : EmptyRun d.raws i set.raws.length) (bounded : Bounded d.raws i)
    (hashed : set.Hashed v.setup.upcaseTable) :
    ∃ d', d.Edits d' i set.raws (some set) ∧ (∀ x ∈ d.sets, x.1 ≠ i) ∧
      (Volume.putEntries c i set.raws v.tick).Folder home c d' ∧
      Changes home {c} v (Volume.putEntries c i set.raws v.tick) := by
  obtain ⟨⟨d', edits⟩, apart⟩ := d.exists_insert set run bounded
  have inside := edits.inside
  rw [folder.length, ← tick_clusterSlots] at inside
  have ticked := folder.kept (changes_tick v) (Set.notMem_empty c)
  refine ⟨d', edits, apart, ticked.putEntries edits ?_,
    ((changes_tick v).trans (ticked.cell.putEntries_changes _ inside)).mono ?_⟩
  · rintro _ ⟨⟩
    have ticks : Changes home ∅ v v.tick := changes_tick v
    rw [ticks.upcaseTable]
    exact hashed
  · exact (Set.empty_union _).le

/-- A set of the folder is rewritten after other clusters have changed. -/
theorem rewrites (member : (i, set) ∈ d.sets) {file stream : RawDirEntry} (replaces : set.Replaces file stream)
    (hash : (StreamExtensionDirEntry.ofRaw stream).nameHash = (StreamExtensionDirEntry.ofRaw set.stream).nameHash)
    (attributes : (FileDirEntry.ofRaw file).fileAttributes = (FileDirEntry.ofRaw set.fileDir).fileAttributes)
    (created : (FileDirEntry.ofRaw file).created = (FileDirEntry.ofRaw set.fileDir).created)
    (before : Changes home T v v₁)
    (outside : c ∉ T) : ∃ d', d.Edits d' i (set.replace replaces).raws (some (set.replace replaces)) ∧
      (v₁.updateSet c i set file stream).Folder home c d' ∧
        Changes home (T ∪ {c}) v (v₁.updateSet c i set file stream) := by
  obtain ⟨d', edits⟩ := DirList.exists_replace member (EntrySet.length_replace replaces)
  have kept := folder.kept before outside
  exact ⟨d', edits, kept.updateSet member replaces edits hash attributes created,
    before.trans ((kept.setAt member).updateSet_changes file stream)⟩

end Edits

end Folder

end Volume

end ExFatSlim
