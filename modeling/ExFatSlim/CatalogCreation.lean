import ExFatSlim.CatalogChanges

namespace ExFatSlim

namespace Volume

variable {size n : Nat} {home : Nat → CacheKind} {v : Volume size} {c fuel : Nat} {d : DirList} {name : List Char}

/-- How many entries the set of a file with the name takes. -/
def setLen (name : List Char) : Nat := calcDirEntrySetLen (encodeUtf16 name).length

/-- A name that the code accepts and that a set can hold. -/
structure Nameable (v : Volume size) (name : List Char) : Prop where
  accepted : ∃ hashed, hashedName v.setup.upcaseTable name = .ok hashed
  short : (encodeUtf16 name).length ≤ 255

/-- The folder has room for a name. -/
def Room (v : Volume size) (c : Nat) (name : List Char) : Prop :=
  ∃ j, EmptyRun (v.rawEntries c 0 v.clusterSlots) j (setLen name)

/-- A set that `create_file_dir_entry_at` has written. -/
structure Made (v : Volume size) (e : NewEntry) (place : Location) (set : EntrySet) : Prop where
  name : set.name = e.name
  hashed : set.Hashed v.setup.upcaseTable
  details : set.details place =
    { e.details v.setup.now place with accessed := { v.setup.now with increment10ms := 0 } }

section Made

variable {e : NewEntry} {place : Location} {set : EntrySet} (made : v.Made e place set)

include made

theorem Made.attributes : (FileDirEntry.ofRaw set.fileDir).fileAttributes = e.attributes := by
  have same := congrArg FileDetails.attributes made.details
  exact same

theorem Made.firstCluster : set.firstCluster = e.firstCluster := by
  have same := congrArg FileDetails.firstCluster made.details
  exact same

theorem Made.dataLength : set.dataLength = e.dataLength := by
  have same := congrArg FileDetails.dataLength made.details
  exact same

theorem Made.validDataLength : set.validDataLength = e.validDataLength := by
  have same := congrArg FileDetails.validDataLength made.details
  exact same

theorem Made.flags : (StreamExtensionDirEntry.ofRaw set.stream).generalSecondaryFlags = e.flags := by
  have same := congrArg FileDetails.flags made.details
  exact same

theorem Made.secondaryCount : (FileDirEntry.ofRaw set.fileDir).secondaryCount = e.setLen - 1 := by
  have same := congrArg FileDetails.secondaryCount made.details
  exact same

end Made

/-- A new entry goes to the first empty entries of a folder that are enough for it. -/
theorem Folder.create (folder : v.Folder home c d) {s : Session size n} (sound : s.fs.Sound home)
    (shown : s.fs.volume home = v)
    (clocked : v.setup.Clocked) (enough : v.mostSlots < fuel) {e : NewEntry} (fits : e.Fits)
    (nameable : v.Nameable e.name)
    (room : v.Room c e.name) :
    ∃ i set, EmptyRun d.raws i set.raws.length ∧ Bounded d.raws i ∧ v.Made e (v.slotLocation c i) set ∧
      Session.Leads home (e.create fuel c) s (.ok (e.details v.setup.now (v.slotLocation c i)))
        (Volume.putEntries c i set.raws v.tick) := by
  subst shown
  obtain ⟨⟨nameHash, count⟩, accepted⟩ := nameable.accepted
  have run : (encodeUtf16UpcaseAndHash e.name s.fs.upcaseTable : ExFat (Session size n) (Nat × Nat)) s =
      (.ok (nameHash, count), s) := by
    rw [encodeUtf16UpcaseAndHash_run]
    exact congrArg (fun r => (r, s)) accepted
  obtain ⟨hash, rfl, named, _⟩ := encodeUtf16UpcaseAndHash_ok run
  obtain ⟨_, hashed, _⟩ := hashedName_ok accepted
  have named : 0 < e.units.length := named
  have holds : Session.DirHolds home c d s := ⟨sound, folder.cell, folder.last, clocked, folder.content⟩
  have slots : (s.fs.volume home).clusterSlots < fuel := by
    have most := folder.directory.length_le
    rw [folder.dirEntries, length_placed, folder.length] at most
    omega
  have few := (NewEntry.setLen_bounds fits.short).1
  rw [Room, folder.content] at room
  have some_ : 0 < e.setLen := by omega
  obtain ⟨i, free, bounded, found⟩ := holds.findEmpty some_ room slots
  have clock : s.fs.setup.now.Fits := clocked.now_fits
  have inside := free.1
  rw [folder.length] at inside
  have created := NewEntry.create_leads folder.cell.stretch clocked fits.short run found inside
  have raws := NewEntry.toSet_raws fits hash named clock
  rw [← NewEntry.length_raws fits.short nameHash s.fs.setup.now, ← raws] at free
  rw [← raws] at created
  refine ⟨i, _, free, bounded, ⟨rfl, ?_, NewEntry.toSet_details fits hash named clock _⟩, created⟩
  exact (congrArg StreamExtensionDirEntry.nameHash (NewEntry.ofRaw_stream fits hash)).trans hashed

end Volume

end ExFatSlim
