import ExFatSlim.CatalogEdits
import ExFatSlim.WholeFiles

namespace ExFatSlim

variable {size n : Nat} {α : Type} {home : Nat → CacheKind}

theorem Session.flush_leads {s : Session size n} (sound : s.fs.Sound home) :
    Session.Leads home flush s (.ok ()) (s.fs.volume home) := by
  obtain ⟨fs', run, served, _⟩ := flush_spec sound
  exact .of_run run served.sound served.volume

/-- Marking the entries of a set unused. -/
theorem Session.markSet_leads {s : Session size n} {c i : Nat} {set : EntrySet} (sound : s.fs.Sound home)
    (at_ : (s.fs.volume home).SetAt home c i set) : Session.Leads home
      (markDirectoryEntrySetUnused ((s.fs.volume home).slotLocation c i)
        ((FileDirEntry.ofRaw set.fileDir).secondaryCount + 1)) s (.ok ())
      (Volume.putEntries c i (set.raws.map cleared) (s.fs.volume home)) := by
  have inside := at_.inside
  have length : set.raws.length = (FileDirEntry.ofRaw set.fileDir).secondaryCount + 1 := set.length_raws
  have marked :=
    markEntriesUnused_leads ((FileDirEntry.ofRaw set.fileDir).secondaryCount + 1) sound at_.cell (by omega)
    (settled_slotLocation at_.cell i)
  rw [← length, at_.entries] at marked
  rw [← length]
  exact marked

/-- The entry is that of an empty file with these details. -/
structure Volume.Vacant (v : Volume size) (c i : Nat) (set : EntrySet) (details : FileDetails) : Prop where
  file : set.isFolder = false
  empty : set.dataLength = 0
  location : details.location = v.slotLocation c i
  secondaryCount : details.secondaryCount = (FileDirEntry.ofRaw set.fileDir).secondaryCount
  dataLength : details.dataLength = 0
  validDataLength : details.validDataLength = 0
  firstCluster : details.firstCluster = noClusterId

namespace FileSystem

open Volume

/-- The file system shows the volume that `cat` lists, with rounds enough for every folder. -/
structure Shows (home : Nat → CacheKind) (aside : Set Nat) (fuel : Nat) (fs : FileSystem size n)
    (cat : Catalog) : Prop where
  sound : fs.Sound home
  catalogued : (fs.volume home).Catalogued home aside cat
  enough : (fs.volume home).mostSlots < fuel

variable {fs : FileSystem size n} {aside : Set Nat} {cat : Catalog} {c i fuel : Nat} {set : EntrySet}
  {path : List Char}

namespace Shows

section Calls

variable (shows : Shows home aside fuel fs cat)

include shows

theorem mounted : fs.isMounted = true := shows.catalogued.layout.mounted

theorem served {fs' : FileSystem size n} (sound : fs'.Sound home) (shown : fs'.volume home = fs.volume home) :
    Shows home aside fuel fs' cat where
  sound := sound
  catalogued := shown ▸ shows.catalogued
  enough := shown ▸ shows.enough

theorem fit : fs.Fit home where
  sound := shows.sound
  layout := shows.catalogued.layout
  search := shows.catalogued.search
  room := shows.catalogued.data

variable (accepts : fs.setup.upcaseTable.Accepts path)

include accepts

theorem find_found (attributes : Option FileAttributes) (reaches : (fs.volume home).Reaches cat path c i set)
    (fits : ∀ required ∈ attributes, (FileDirEntry.ofRaw set.fileDir).fileAttributes.contains required = true) :
    FileSystem.Leads home (findFileInner fuel path attributes) fs
      (.ok (set.details ((fs.volume home).slotLocation c i))) (fs.volume home) :=
  FileSystem.find_found shows.sound shows.catalogued shows.enough accepts reaches fits

theorem find_missing (attributes : Option FileAttributes)
    (missing : ∀ c i set, (fs.volume home).Reaches cat path c i set →
      ¬ ∀ required ∈ attributes, (FileDirEntry.ofRaw set.fileDir).fileAttributes.contains required = true) :
    FileSystem.Leads home (findFileInner fuel path attributes) fs (.error (.error .fileNotFound)) (fs.volume home) :=
  FileSystem.find_missing shows.sound shows.catalogued shows.enough accepts missing

/-- What `exists` answers. -/
theorem exists_found (reaches : (fs.volume home).Reaches cat path c i set) :
    FileSystem.Leads home («exists» fuel path) fs (.ok true) (fs.volume home) := by
  obtain ⟨fs', run, sound, shown⟩ := shows.find_found accepts none reaches fun _ none_ => by cases none_
  refine .of_run ?_ sound shown
  rw [«exists», Exec.bind_of_ok (mount_of_mounted shows.mounted), Exec.bind_of_ok (Exec.attempt_of_ok run)]
  rfl

theorem exists_missing (missing : ∀ c i set, ¬ (fs.volume home).Reaches cat path c i set) :
    FileSystem.Leads home («exists» fuel path) fs (.ok false) (fs.volume home) := by
  obtain ⟨fs', run, sound, shown⟩ := shows.find_missing accepts none fun c i set reaches _ => missing c i set reaches
  refine .of_run ?_ sound shown
  rw [«exists», Exec.bind_of_ok (mount_of_mounted shows.mounted), Exec.bind_of_ok (Exec.attempt_of_error run)]
  rfl

omit accepts in
/-- What a file of the catalog has to be for the code to find it. -/
theorem archive (has : cat.Has c i set) : (∀ required ∈ some attrArchive,
    (FileDirEntry.ofRaw set.fileDir).fileAttributes.contains required = true) ↔ set.isFolder = false := by
  constructor
  · intro archive
    cases kind : set.isFolder with
    | false => rfl
    | true => cases (archive attrArchive rfl).symm.trans (shows.catalogued.inner has kind).archive
  · rintro kind _ ⟨⟩
    exact (shows.catalogued.file has kind).archive

omit accepts in
theorem stores (has : cat.Has c i set) (file : set.isFolder = false) :
    (fs.volume home).Stores home (set.details ((fs.volume home).slotLocation c i)) (cat.clusters c i) :=
  (shows.catalogued.file has file).stores

/-- What `read` answers. -/
theorem read_found (reaches : (fs.volume home).Reaches cat path c i set) (file : set.isFolder = false) :
    FileSystem.Leads home (read fuel path) fs (.ok (set.content (fs.volume home) (cat.clusters c i)))
      (fs.volume home) := by
  have has := reaches.has
  have stores := shows.stores has file
  obtain ⟨fs₁, found, _, _⟩ := shows.find_found accepts (some attrArchive) reaches ((shows.archive has).mpr file)
  obtain ⟨fs₂, opens, fit, volume⟩ : ∃ fs₂ : FileSystem size n, «open» fuel path { read := true } fs =
      (.ok (opened (set.details ((fs.volume home).slotLocation c i)) (cat.clusters c i) fs₂.fs.clusterLength
        { read := true }), fs₂) ∧
      fs₂.Fit home ∧ fs₂.volume home = fs.volume home := open_found shows.fit found stores rfl rfl
  have stores₂ : (fs₂.volume home).Stores home (set.details ((fs.volume home).slotLocation c i))
      (cat.clusters c i) := by
    rw [volume]
    exact stores
  have readable : FileSession.Readable home (cat.clusters c i) ⟨fs₂, opened _ _ _ { read := true }⟩ :=
    FileSession.readable_of_opened fit stores₂ rfl rfl
  have short : set.dataLength < 2 ^ fs₂.usizeBits := by
    have bits : fs₂.usizeBits = fs.usizeBits := congrArg (fun v : Volume size => v.setup.usizeBits) volume
    rw [bits]
    exact (shows.catalogued.file has file).short
  obtain ⟨s, reads, sound, shown, touched⟩ := File.readToEnd_whole readable rfl short
  obtain ⟨s', closes, served⟩ := File.close_clean sound (congrArg FileDirty.isDirEntryDirty touched)
  have sound' : s'.fs.Sound home := served.sound
  refine .of_run ?_ sound' (served.volume.trans (shown.trans volume))
  rw [read, Exec.bind_of_ok (mount_of_mounted shows.mounted), Exec.bind_of_ok opens, withFile, Exec.bind_of_ok reads,
    Exec.bind_of_ok closes, volume]
  rfl

/-- No file is found where there is none. -/
theorem find_file_missing (missing : ∀ c i set, (fs.volume home).Reaches cat path c i set → set.isFolder = true) :
    FileSystem.Leads home (findFileInner fuel path (some attrArchive)) fs (.error (.error .fileNotFound))
      (fs.volume home) := by
  refine shows.find_missing accepts (some attrArchive) fun c i set reaches archive => ?_
  have kind := missing c i set reaches
  rw [(shows.archive reaches.has).mp archive] at kind
  cases kind

theorem read_missing (missing : ∀ c i set, (fs.volume home).Reaches cat path c i set → set.isFolder = true) :
    FileSystem.Leads home (read fuel path) fs (.error (.error .fileNotFound)) (fs.volume home) := by
  obtain ⟨fs₁, run, sound, shown⟩ := shows.find_file_missing accepts missing
  have opens : «open» fuel path { read := true } fs = (.error (.error .fileNotFound), fs₁) := by
    have details : openDetails fuel path { read := true } fs = (.error (.error .fileNotFound), fs₁) := by
      rw [openDetails, Exec.bind_of_ok (Exec.attempt_of_error run)]
      rfl
    rw [«open», Exec.bind_of_ok (mount_of_mounted shows.mounted), Exec.bind_of_error details]
  refine .of_run ?_ sound shown
  rw [read, Exec.bind_of_ok (mount_of_mounted shows.mounted), Exec.bind_of_error opens]

omit accepts in
/-- Deleting an entry that has no children frees its clusters and marks it unused. -/
theorem deleteInner_leads {fs' : FileSystem size n} {details : FileDetails} {cs : List Nat} (has : cat.Has c i set)
    (details_ : details = set.details ((fs.volume home).slotLocation c i))
    (stores : (fs.volume home).Stores home details cs)
    (childless : confirmHasNoChildren fuel details fs = (.ok (), fs')) : ∃ v, Freed home cs (fs.volume home) v ∧
      FileSystem.Leads home (deleteInner fuel details) fs (.ok ()) (putEntries c i (set.raws.map cleared) v) := by
  have layout := shows.catalogued.layout
  have looks : Looks home fs _ := confirmHasNoChildren_looks fuel details fs
  rw [childless] at looks
  obtain ⟨sound₁, volume₁, _⟩ := looks.served shows.sound
  have at_ := (shows.catalogued.folder c has.1).setAt has.2
  rw [← volume₁] at stores at_ ⊢
  have layout₁ : Layout size home fs'.setup := at_.cell.layout
  obtain ⟨s₂, run₂, sound₂, shown₂⟩ :=
    Session.leads_onFs (s := ⟨fs', .new⟩) (getStoredChain_leads sound₁ layout₁ stores)
  have shown₂ : s₂.fs.volume home = fs'.volume home := shown₂
  rw [← shown₂] at stores at_ ⊢
  obtain ⟨v, freeing, freed, _⟩ := Allocator.free_leads sound₂ at_.cell.layout stores
  refine ⟨v, freed, ?_⟩
  have after : Session.Leads home (do
      Allocator.free (storedChain details cs)
      Session.markDirectoryEntrySetUnused details.location (details.secondaryCount + 1)
      Session.flush) s₂ (.ok ()) (putEntries c i (set.raws.map cleared) v) := by
    refine freeing.bind fun s₃ sound₃ shown₃ => ?_
    have at₃ := at_.of_data freed.setup freed.data
    have place : details.location = v.slotLocation c i := by
      rw [details_, slotLocation_of_setup freed.setup, shown₂, volume₁]
      rfl
    rw [← shown₃] at at₃ place ⊢
    rw [place, show details.secondaryCount = (FileDirEntry.ofRaw set.fileDir).secondaryCount by rw [details_]; rfl]
    refine (Session.markSet_leads sound₃ at₃).bind fun s₄ sound₄ shown₄ => ?_
    rw [← shown₄]
    exact Session.flush_leads sound₄
  obtain ⟨s₅, run₅, sound₅, shown₅⟩ := after
  have sound₅ : s₅.fs.Sound home := sound₅
  refine .of_run ?_ sound₅ shown₅
  have rest : (do
      let chain ← Session.onFs (getStoredChain details)
      Allocator.free chain
      Session.markDirectoryEntrySetUnused details.location (details.secondaryCount + 1)
      Session.flush : ExFat (Session size n) Unit) ⟨fs', .new⟩ = (.ok (), s₅) := by
    rw [Exec.bind_of_ok run₂]
    exact run₅
  rw [deleteInner, Exec.bind_of_ok childless]
  exact congrArg (fun p => (p.1, p.2.fs)) rest

theorem removeFile_found (reaches : (fs.volume home).Reaches cat path c i set) (file : set.isFolder = false) :
    ∃ v d, FileSystem.Leads home (removeFile fuel path) fs (.ok ()) v ∧
      Revises home ∅ (fs.volume home) v cat c i d none [] := by
  have has := reaches.has
  obtain ⟨fs₁, found, sound₁, shown₁⟩ :=
    shows.find_found accepts (some attrArchive) reaches ((shows.archive has).mpr file)
  have childless : confirmHasNoChildren fuel (set.details ((fs.volume home).slotLocation c i)) fs₁ =
      (.ok (), fs₁) := by
    have kind : (set.details ((fs.volume home).slotLocation c i)).attributes.contains attrDirectory = false := file
    rw [confirmHasNoChildren, kind]
    rfl
  obtain ⟨v, freed, run⟩ :=
    (shows.served sound₁ shown₁).deleteInner_leads has (by rw [shown₁]) (by rw [shown₁]; exact shows.stores has file)
    childless
  rw [shown₁] at freed
  obtain ⟨d, revises⟩ := shows.catalogued.removes has freed
  obtain ⟨fs₂, run₂, sound₂, shown₂⟩ := run
  refine ⟨_, d, .of_run ?_ sound₂ shown₂, revises⟩
  rw [removeFile, Exec.bind_of_ok (mount_of_mounted shows.mounted), Exec.bind_of_ok found, run₂]

theorem removeFile_missing (missing : ∀ c i set, (fs.volume home).Reaches cat path c i set → set.isFolder = true) :
    FileSystem.Leads home (removeFile fuel path) fs (.error (.error .fileNotFound)) (fs.volume home) := by
  obtain ⟨fs₁, run, sound, shown⟩ := shows.find_file_missing accepts missing
  refine .of_run ?_ sound shown
  rw [removeFile, Exec.bind_of_ok (mount_of_mounted shows.mounted), Exec.bind_of_error run]

omit accepts in
/-- Truncating a file leaves the entry of an empty one. -/
theorem truncateFile_leads (has : cat.Has c i set) (file : set.isFolder = false) :
    ∃ v d set', FileSystem.Leads home (truncateFile (set.details ((fs.volume home).slotLocation c i)) 0) fs
        (.ok (set.details ((fs.volume home).slotLocation c i)).truncated) v ∧
      Revises home ∅ (fs.volume home) v cat c i d (some set') [] ∧ set'.name = set.name ∧
      v.Vacant c i set' (set.details ((fs.volume home).slotLocation c i)).truncated := by
  have layout := shows.catalogued.layout
  have stores := shows.stores has file
  have at_ := (shows.catalogued.folder c has.1).setAt has.2
  obtain ⟨s₁, run₁, sound₁, shown₁⟩ :=
    Session.leads_onFs (s := ⟨fs, .new⟩) (getStoredChain_leads shows.sound layout stores)
  have rewritten : Session.Leads home (Session.rewriteSet (set.details ((fs.volume home).slotLocation c i)).truncated
      (Session.truncateEdit (set.details ((fs.volume home).slotLocation c i)).truncated)) s₁ (.ok ())
      ((fs.volume home).updateSet c i set set.fileDir
        (Session.truncatedStream (set.details ((fs.volume home).slotLocation c i)).truncated set.stream)) :=
    Session.rewriteSet_truncate at_ rfl rfl sound₁ shown₁
  obtain ⟨s₂, run₂, sound₂, shown₂⟩ := rewritten
  have shown₂ : s₂.fs.volume home = (fs.volume home).updateSet c i set set.fileDir
    (Session.truncatedStream (set.details ((fs.volume home).slotLocation c i)).truncated set.stream) := shown₂
  have edited : Edited home (fs.volume home) (s₂.fs.volume home) := by
    rw [shown₂]
    exact at_.updateSet_edited (.refl _) _ _
  obtain ⟨v, ⟨s₃, run₃, sound₃, shown₃⟩, freed, _⟩ :=
    Allocator.free_leads sound₂ (edited.layout layout) (edited.stores layout stores)
  obtain ⟨fs', run₄, served, _⟩ := Session.flush_spec sound₃
  have stream : StreamExtensionDirEntry.ofRaw
    (Session.truncatedStream (set.details ((fs.volume home).slotLocation c i)).truncated set.stream) =
      { StreamExtensionDirEntry.ofRaw set.stream with
        dataLength := 0, validDataLength := 0, firstCluster := noClusterId } :=
    ofRaw_truncatedStream (Nat.pow_pos (by decide)) (Nat.pow_pos (by decide))
      (by decide : noClusterId < 2 ^ 32) set.stream
  have replaces : set.Replaces set.fileDir
      (Session.truncatedStream (set.details ((fs.volume home).slotLocation c i)).truncated set.stream) := by
    refine ⟨set.isFile, ?_, rfl, by rw [stream]⟩
    rw [Session.truncatedStream, StreamExtensionDirEntry.byte_serialize]
    rfl
  have empty : (set.replace replaces).dataLength = 0 ∧ (set.replace replaces).validDataLength = 0 := by
    constructor
    · exact congrArg StreamExtensionDirEntry.dataLength stream
    · exact congrArg StreamExtensionDirEntry.validDataLength stream
  have layout' : Layout size home v.setup := freed.setup ▸ edited.layout layout
  rw [shown₂] at freed
  obtain ⟨d, revises⟩ := shows.catalogued.rewrites has file replaces (by rw [stream]) rfl rfl
    ((Changes.refl _).mono (Set.empty_subset {e | e ∈ []})) (fun e member => by cases member) freed
    (stores_nil layout' empty.1 empty.2) (by rw [empty.1]; exact Nat.pow_pos (by decide))
  refine ⟨v, d, set.replace replaces,
    .of_run (truncateFile_run run₁ run₂ run₃ run₄) served.sound (served.volume.trans shown₃), revises,
    rfl, ?_, empty.1, ?_, ?_, rfl, rfl, rfl⟩
  · rw [EntrySet.isFolder, EntrySet.attributes_replace replaces rfl]
    exact file
  · rw [revises.changes.slotLocation]
    rfl
  · rw [EntrySet.ofRaw_replace]
    rfl

end Calls

end Shows

end FileSystem

end ExFatSlim
