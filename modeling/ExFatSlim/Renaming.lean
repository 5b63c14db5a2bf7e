import ExFatSlim.CatalogMoves
import ExFatSlim.FileCreation

namespace ExFatSlim

namespace Volume

variable {size : Nat} {home : Nat → CacheKind} {v : Volume size} {place : Location} {name : List Char}
  {set new : EntrySet}

/-- The entry set that `rename` makes of a set. -/
def renamedEntry (set : EntrySet) (name : List Char) : NewEntry where
  name := name
  firstCluster := set.firstCluster
  attributes := (FileDirEntry.ofRaw set.fileDir).fileAttributes
  flags := (StreamExtensionDirEntry.ofRaw set.stream).generalSecondaryFlags
  validDataLength := set.validDataLength
  dataLength := set.dataLength

theorem renamedEntry_fits (set : EntrySet) (short : (encodeUtf16 name).length ≤ 255) : (renamedEntry set name).Fits :=
  have fits := StreamExtensionDirEntry.fits_ofRaw set.stream
  ⟨fits.firstCluster, fits.validDataLength, fits.dataLength, short⟩

theorem Made.twin (made : v.Made (renamedEntry set name) place new) : new.Twin set where
  attributes := made.attributes
  firstCluster := made.firstCluster
  dataLength := made.dataLength
  validDataLength := made.validDataLength
  flags := made.flags

end Volume

namespace FileSystem.Shows

open Volume

variable {size n : Nat} {home : Nat → CacheKind} {fs : FileSystem size n} {aside : Set Nat} {cat : Catalog}
  {c i fuel missing : Nat} {set : EntrySet}
  {fromPath toPath : List Char}

section Rename

variable (shows : Shows home aside fuel fs cat) (accepts : fs.setup.upcaseTable.Accepts fromPath)

include shows accepts

theorem rename_missing (missing : ∀ c i set, ¬ (fs.volume home).Reaches cat fromPath c i set) :
    FileSystem.Leads home (rename fuel fromPath toPath) fs (.error (.error .fileNotFound)) (fs.volume home) := by
  obtain ⟨fs₁, run, sound, shown⟩ :=
    shows.find_missing accepts none fun c i set reaches => absurd reaches (missing c i set)
  refine .of_run ?_ sound shown
  rw [rename, Exec.bind_of_ok (mount_of_mounted shows.mounted), Exec.bind_of_error run]

section Found

variable (reaches : (fs.volume home).Reaches cat fromPath c i set)

include reaches

/-- Nothing is renamed to a name that is there. -/
theorem rename_onto {c' i' : Nat} {set' : EntrySet} (accepts' : fs.setup.upcaseTable.Accepts toPath)
    (there : (fs.volume home).Reaches cat toPath c' i' set') :
    FileSystem.Leads home (rename fuel fromPath toPath) fs (.error (.error .alreadyExists)) (fs.volume home) := by
  obtain ⟨fs₁, found, sound₁, shown₁⟩ := shows.find_found accepts none reaches fun _ none_ => by cases none_
  have table : fs₁.setup.upcaseTable = fs.setup.upcaseTable :=
    congrArg (fun v : Volume size => v.setup.upcaseTable) shown₁
  rw [← shown₁] at there
  obtain ⟨fs₂, run, sound, shown⟩ :=
    (shows.served sound₁ shown₁).find_found (table ▸ accepts') none there fun _ none_ => by cases none_
  refine .of_run ?_ sound (shown.trans shown₁)
  rw [rename, Exec.bind_of_ok (mount_of_mounted shows.mounted), Exec.bind_of_ok found,
    Exec.bind_of_ok (Exec.attempt_of_ok run)]
  rfl

/-- A file or a folder is moved with all that is under it. -/
theorem rename_found (absent : ∀ c i set, ¬ (fs.volume home).Reaches cat toPath c i set)
    (creatable : (fs.volume home).Creatable toPath missing)
    (room : missing ≤ (fs.volume home).freeClusters.card)
    (apart : ¬ fs.setup.upcaseTable.keys fromPath <+: fs.setup.upcaseTable.keys (splitPath toPath).1) :
    ∃ v' cat', FileSystem.Leads home (rename fuel fromPath toPath) fs (.ok ()) v' ∧
      Becomes home aside (fs.volume home) v' cat cat' ∧
      v'.paths cat' =
        Store.relocated
        (Store.furnished ((fs.volume home).paths cat) (fs.setup.upcaseTable.keys (splitPath toPath).1))
        (fs.setup.upcaseTable.keys fromPath) (fs.setup.upcaseTable.keys toPath) := by
  have has := reaches.has
  have accepts' : fs.setup.upcaseTable.Accepts toPath := fun name member => (creatable.nameable name member).accepted
  obtain ⟨fs₁, found, sound₁, shown₁⟩ := shows.find_found accepts none reaches fun _ none_ => by cases none_
  have setup₁ : fs₁.setup = fs.setup := congrArg Volume.setup shown₁
  have accepts₁ : fs₁.setup.upcaseTable.Accepts toPath := setup₁ ▸ accepts'
  obtain ⟨fs₂, missed, sound₂, shown₂⟩ :=
      (shows.served sound₁ shown₁).find_missing accepts₁ none fun c i set reaches => by
    rw [shown₁] at reaches
    exact absurd reaches (absent c i set)
  have shown₂ : fs₂.volume home = fs.volume home := shown₂.trans shown₁
  obtain ⟨v₁, cat₁, d, j, new, s₁, s₂, run₁, run₂, sound₃, shown₃, lodged⟩ :=
    (shows.served sound₂ shown₂).lodges shown₂ creatable room
    (e := renamedEntry set (splitPath toPath).2) rfl (renamedEntry_fits set)
  obtain ⟨furnishes, here, walked, paths₁, run, bounded, made, free⟩ := lodged
  have catalogued := furnishes.catalogued
  have has₁ := (furnishes.kept c i set has).1
  have name : new.name = (splitPath toPath).2 := made.name
  have at_ := inserted_setAt catalogued has₁ here run bounded made.hashed
  have table : v₁.setup.upcaseTable = fs.setup.upcaseTable := furnishes.upcaseTable
  obtain ⟨ks, split, walked', _⟩ := reaches
  have keys : fs.setup.upcaseTable.keys fromPath = ks ++ [fs.setup.upcaseTable.key set.name] := split
  have from_ : (cat₁.store v₁).walk v₁.setup.details.firstClusterOfRootDir ks = some c := by
    rw [furnishes.details]
    exact Store.walk_mono (fun c k e => furnishes.store c k _) walked'
  rw [keys, ← table] at apart
  obtain ⟨cat', becomes, store⟩ :=
    catalogued.moves has₁ here run bounded made.hashed made.twin from_ (table ▸ walked) (table ▸ apart)
    (name ▸ free)
  rw [← shown₃] at at_
  obtain ⟨s₄, run₄, sound₄, shown₄⟩ := Session.markSet_leads sound₃ at_
  obtain ⟨fs₅, run₅, served, _⟩ := Session.flush_spec sound₄
  have shown₄ : s₄.fs.volume home = v₁.moved c i set d j new := by
    rw [moved, ← shown₃]
    exact shown₄
  refine ⟨_, cat', .of_run ?_ served.sound (served.volume.trans shown₄), furnishes.toBecomes.trans becomes, ?_⟩
  · have place : (s₂.fs.volume home).slotLocation c i = (fs.volume home).slotLocation c i := by
      rw [shown₃, slotLocation_of_setup (putEntries_setup ..), tick_slotLocation, slotLocation, slotLocation,
        dataSector, dataSector,
        furnishes.details]
    rw [place] at run₄
    have whole : (do
        let directoryClusterId ← Session.getOrCreateDirectory fuel (splitPath toPath).1
        let _ ← (renamedEntry set (splitPath toPath).2).create fuel directoryClusterId
        Session.markDirectoryEntrySetUnused ((fs.volume home).slotLocation c i)
          ((FileDirEntry.ofRaw set.fileDir).secondaryCount + 1)
        Session.flush : ExFat (Session size n) Unit) ⟨fs₂, .new⟩ = (.ok (), ⟨fs₅, .new⟩) := by
      rw [Exec.bind_of_ok run₁, Exec.bind_of_ok run₂, Exec.bind_of_ok run₄, run₅]
    rw [rename, Exec.bind_of_ok (mount_of_mounted shows.mounted), Exec.bind_of_ok found,
      Exec.bind_of_ok (Exec.attempt_of_error missed)]
    exact congrArg (fun p => (p.1, p.2.fs)) whole
  · have there : cat₁.store v₁ c (v₁.setup.upcaseTable.key set.name) = some (cat₁.entry v₁ c i set) :=
      catalogued.store_iff.mpr ⟨i, set, has₁, rfl, rfl⟩
    have keys' : fs.setup.upcaseTable.keys toPath = fs.setup.upcaseTable.keys (splitPath toPath).1 ++
        [fs.setup.upcaseTable.key (splitPath toPath).2] := creatable.keys
    rw [table] at store there apart
    funext path
    rw [paths, store, becomes.details, Store.look_move catalogued.rooted from_ walked there apart path,
      Store.relocated, keys, keys', name,
      List.length_append]
    have base : (fs.volume home).setup.upcaseTable = fs.setup.upcaseTable := rfl
    rw [base] at paths₁
    rw [← paths₁]
    rfl

end Found

end Rename

end FileSystem.Shows

end ExFatSlim
