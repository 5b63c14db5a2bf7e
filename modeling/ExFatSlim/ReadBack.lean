import ExFatSlim.EntryList

namespace ExFatSlim

open DirectoryEntryChain (dirEntriesPerBlock listAll nextFileEntry newFromFileDetails reported)

namespace NewEntry

variable {e : NewEntry} {nameHash : Nat} {now : EncodedTimestamp}

theorem fileDir_fits (fits : e.Fits) (clock : now.Fits) : FileDirEntry.ofRaw (e.fileDir now) = {
    secondaryCount := e.setLen - 1
    setChecksum := 0
    fileAttributes := e.attributes
    createTimestamp := now.packed
    lastModifiedTimestamp := now.packed
    lastAccessedTimestamp := now.packed
    create10msIncrement := now.increment10ms
    lastModified10msIncrement := now.increment10ms
    createUtcOffset := now.utcOffset
    lastModifiedUtcOffset := now.utcOffset
    lastAccessedUtcOffset := now.utcOffset } := by
  have few := (setLen_bounds fits.short).2
  refine FileDirEntry.ofRaw_serialize ⟨?_, Nat.pow_pos (by decide), clock.packed, clock.packed, clock.packed,
    clock.increment10ms,
    clock.increment10ms, clock.utcOffset, clock.utcOffset, clock.utcOffset⟩
  dsimp only
  omega

theorem ofRaw_stream (fits : e.Fits) (hash : nameHash < 2 ^ 16) :
    StreamExtensionDirEntry.ofRaw (e.stream nameHash) = {
    generalSecondaryFlags := e.flags
    nameLength := e.units.length
    nameHash
    validDataLength := e.validDataLength
    firstCluster := e.firstCluster
    dataLength := e.dataLength } := by
  have short := fits.short
  refine StreamExtensionDirEntry.ofRaw_serialize ⟨?_, hash, fits.validDataLength, fits.firstCluster, fits.dataLength⟩
  dsimp only
  omega

theorem setChecksum_lt (first : RawDirEntry) (rest : List RawDirEntry) : setChecksum (first :: rest) < 2 ^ 16 := by
  rw [DirSetWriter.setChecksum_cons]
  have start := DirSetWriter.calcChecksum_lt (show 0 < 2 ^ 16 by decide) first true
  generalize DirSetWriter.calcChecksum 0 first true = sum at start
  induction rest generalizing sum with
  | nil => exact start
  | cons raw rest ih => exact ih _ (DirSetWriter.calcChecksum_lt start raw false)

theorem ofRaw_primary (fits : e.Fits) (clock : now.Fits) (nameHash : Nat) :
    FileDirEntry.ofRaw (e.primary nameHash now) = {
      secondaryCount := e.setLen - 1
      setChecksum := setChecksum (e.raws nameHash now)
      fileAttributes := e.attributes
      createTimestamp := now.packed
      lastModifiedTimestamp := now.packed
      lastAccessedTimestamp := now.packed
      create10msIncrement := now.increment10ms
      lastModified10msIncrement := now.increment10ms
      createUtcOffset := now.utcOffset
      lastModifiedUtcOffset := now.utcOffset
      lastAccessedUtcOffset := now.utcOffset } := by
  have sum : setChecksum (e.raws nameHash now) = setChecksum (e.fileDir now :: e.secondary nameHash) := by
    rw [raws, primary, DirSetWriter.setChecksum_cons, DirSetWriter.setChecksum_cons,
      DirSetWriter.calcChecksum_patch _ _ _ (length_leBytes 2 _)]
  rw [primary, FileDirEntry.ofRaw_patch_checksum _ (setChecksum_lt _ _), fileDir_fits fits clock, sum]

theorem primary_checksum (fits : e.Fits) (clock : now.Fits) (nameHash : Nat) :
    (FileDirEntry.ofRaw (e.primary nameHash now)).setChecksum = setChecksum (e.raws nameHash now) := by
  rw [ofRaw_primary fits clock]

theorem primary_secondaryCount (fits : e.Fits) (clock : now.Fits) (nameHash : Nat) :
    (FileDirEntry.ofRaw (e.primary nameHash now)).secondaryCount = 1 + (nameRaws e.units.length e.units).length := by
  have count := (setLen_bounds fits.short).1
  rw [ofRaw_primary fits clock]
  dsimp only
  omega

/-- The set that `create_file_dir_entry_at` writes is well formed. -/
def toSet (e : NewEntry) (nameHash : Nat) (now : EncodedTimestamp) (fits : e.Fits) (hash : nameHash < 2 ^ 16)
    (named : 0 < e.units.length) (clock : now.Fits) : EntrySet where
  fileDir := e.primary nameHash now
  stream := e.stream nameHash
  names := nameRaws e.units.length e.units
  extras := []
  name := e.name
  isFile := by
    rw [primary, Block.byte_patch_outside _ (by simp), fileDir, FileDirEntry.byte_serialize]
    rfl
  isStream := by
    rw [stream, StreamExtensionDirEntry.byte_serialize]
    rfl
  areNames raw member := by
    rw [byte_of_mem_nameRaws _ member]
    rfl
  areExtras := by simp
  secondaryCount := primary_secondaryCount fits clock nameHash
  checksum := by
    rw [primary_checksum fits clock, List.append_nil, raws, secondary]
  nameLength := congrArg StreamExtensionDirEntry.nameLength (ofRaw_stream fits hash)
  named := (congrArg StreamExtensionDirEntry.nameLength (ofRaw_stream fits hash)).symm ▸ named
  nameCount := (congrArg StreamExtensionDirEntry.nameLength (ofRaw_stream fits hash)).symm ▸ length_nameRaws _ le_rfl
  spelled := take_nameRaws _ le_rfl fun u member => encodeUtf16_lt member

variable (fits : e.Fits) (hash : nameHash < 2 ^ 16) (named : 0 < e.units.length) (clock : now.Fits)

theorem toSet_raws : (e.toSet nameHash now fits hash named clock).raws = e.raws nameHash now := by
  rw [EntrySet.raws, raws, secondary, toSet, List.append_nil]

/-- The entry has no room for the hundredths of the time of access. -/
theorem toSet_details (place : Location) : (e.toSet nameHash now fits hash named clock).details place =
    { e.details now place with accessed := { now with increment10ms := 0 } } := by
  have file := ofRaw_primary fits clock nameHash
  have stream := ofRaw_stream fits hash
  simp only [NamedSet.details, detailsOf, toSet, details, file, stream, FileDirEntry.created, FileDirEntry.modified,
    FileDirEntry.accessed]

end NewEntry

namespace Volume

variable {size : Nat} {home : Nat → CacheKind} {v : Volume size} {c : Nat}

/-- The entries from number `k` of a cluster on. -/
def rawEntries (v : Volume size) (c k len : Nat) : List RawDirEntry :=
  (List.range' k len).map fun j => v.entryAt (v.slotLocation c j)

theorem placed_rawEntries (v : Volume size) (c len : Nat) : ∀ k,
    placed (v.slotLocation c) k (v.rawEntries c k len) = (List.range' k len).map (v.dirSlot c) := by
  induction len with
  | zero => intro k; rfl
  | succ len ih =>
    intro k
    rw [rawEntries, List.range'_succ, List.map_cons, List.map_cons, placed]
    exact congrArg _ (ih (k + 1))

@[simp] theorem length_rawEntries (v : Volume size) (c k len : Nat) : (v.rawEntries c k len).length = len := by
  simp [rawEntries]

/-- What was put is read again. -/
theorem DirCluster.rawEntries_putEntries (dir : v.DirCluster home c) {k : Nat} {raws : List RawDirEntry} :
    (putEntries c k raws v).rawEntries c k raws.length = raws := by
  apply List.ext_getElem
  · simp
  intro i bound bound'
  have setup : (putEntries c k raws v).setup = v.setup := putEntries_setup raws k v
  have place := slotLocation_of_setup setup c
  have read := entryAt_putEntries dir.room raws (c := c) (k := k) (j := k + i) (v := v)
  simp only [rawEntries, List.getElem_map, List.getElem_range', Nat.one_mul]
  rw [place, read, if_pos (by omega), Nat.add_sub_cancel_left, List.getElem?_eq_getElem bound']
  rfl

end Volume

namespace Scan

open DirectoryEntryChain (next)

variable {size n : Nat} {home : Nat → CacheKind} {v : Volume size} {c : Nat}

/-- A reader with a limit stops there. -/
theorem Stands.visits_limited (dir : v.DirCluster home c) (stop : RawDirEntry → Bool) (len : Nat) :
    ∀ {k : Nat} {s : Scan size n}, Stands home v c k s → s.chain.numEntries = some (s.chain.cursor + len) →
    k + len ≤ v.clusterSlots → Visits home v stop (placed (v.slotLocation c) k (v.rawEntries c k len)) s := by
  induction len with
  | zero =>
    intro k s stands limit _
    refine .ended stands.toShows ?_ stands.toShows
    rw [Nat.add_zero] at limit
    rw [DirectoryEntryChain.next_eq, if_pos limit]
  | succ len ih =>
    intro k s stands limit inside
    have free : s.Free := by
      rw [Free, limit]
      intro same
      have := Option.some.inj same
      omega
    obtain ⟨s', run, stands', cursor, limit'⟩ :=
      stands.next_within dir.room dir.layout free dir.inHeap dir.data (by omega)
    have rest := ih stands' (by rw [limit', limit, cursor]; congr 1; omega) (by omega)
    have split : v.rawEntries c k (len + 1) = v.entryAt (v.slotLocation c k) :: v.rawEntries c (k + 1) len := by
      rw [Volume.rawEntries, List.range'_succ]
      rfl
    rw [split, placed]
    cases halt : stop (v.entryAt (v.slotLocation c k)) with
    | true => exact .stopped stands.toShows run stands'.toShows halt
    | false => exact .visited stands.toShows run halt rest

end Scan

theorem FileSystem.scanning_of_run {size n : Nat} {α : Type} {fs : FileSystem size n}
    {chain : DirectoryEntryChain size}
    {m : ExFat (Scan size n) α} {r : Except (Fault ExFatError) α} {t : Scan size n} (run : m ⟨fs, chain⟩ = (r, t)) :
    scanning chain m fs = (r, t.fs) := by
  rw [scanning, run]

/-- A reader that is placed on a set by the details of its file. -/
theorem newFromFileDetails_stands {size n : Nat} {home : Nat → CacheKind} {v : Volume size} {c k : Nat} {σ : Type}
    (room : rawEntryLen ≤ size) (layout : Layout size home v.setup) (low : 2 ≤ c) (inside : k < v.clusterSlots)
    {fs : FileSystem size n} (sound : fs.Sound home) (shown : fs.volume home = v) {details : FileDetails}
    (here : details.location = v.slotLocation c k) (t : σ) :
    ∃ chain : DirectoryEntryChain size, newFromFileDetails details fs.fs t = (.ok chain, t) ∧
      Scan.Stands home v c k ⟨fs, chain⟩ ∧ chain.numEntries = some (chain.cursor + (details.secondaryCount + 1)) := by
  have sector : k / dirEntriesPerBlock size < v.setup.details.sectorsPerCluster :=
    (Nat.div_lt_iff_lt_mul (Nat.div_pos room (by decide))).mpr inside
  have same : fs.fs = v.setup.details := congrArg (fun v : Volume size => v.setup.details) shown
  have number : details.location.sectorId = v.setup.details.clusterHeapOffset +
      ((c - 2) * v.setup.details.sectorsPerCluster + k / dirEntriesPerBlock size) := by
    rw [here, Volume.slotLocation, Volume.dataSector]
    dsimp only
    omega
  have pos := layout.sectorsPerCluster
  have quotient : ((c - 2) * v.setup.details.sectorsPerCluster + k / dirEntriesPerBlock size) /
      v.setup.details.sectorsPerCluster = c - 2 := by
    rw [Nat.mul_comm, Nat.mul_add_div pos, Nat.div_eq_of_lt sector, Nat.add_zero]
  have rest : ((c - 2) * v.setup.details.sectorsPerCluster + k / dirEntriesPerBlock size) %
      v.setup.details.sectorsPerCluster = k / dirEntriesPerBlock size := by
    rw [Nat.mul_comm, Nat.mul_add_mod, Nat.mod_eq_of_lt sector]
  refine ⟨{
    clusterId := c
    fs := fs.fs
    clusterOffset := k / dirEntriesPerBlock size
    dirEntryOffset := k % dirEntriesPerBlock size
    buf := fun _ => 0
    fetchRequired := true
    cursor := 0
    numEntries := some (details.secondaryCount + 1) }, ?_, ⟨⟨sound, shown⟩, ⟨same, rfl, Or.inl ⟨rfl, rfl, rfl⟩⟩⟩,
    congrArg some (Nat.zero_add _).symm⟩
  have back : 2 + (c - 2) = c := by omega
  have offset : details.location.dirEntryOffset = k % dirEntriesPerBlock size := by
    rw [here]
    rfl
  rw [newFromFileDetails, same, number, Exec.bind_of_ok (minus_of_le (by omega) t), Nat.add_sub_cancel_left,
    quotient, rest,
    back, offset]
  rfl

namespace NewEntry

variable {size n : Nat} {home : Nat → CacheKind}

/-- The entry set that `create_file_dir_entry_at` writes is read back as what it was made of, wherever the search
for empty entries puts it inside a cluster: the name in UTF-8, and the details but for the hundredths of the time of
access, which have no place in an entry. -/
theorem created_entry_reads_back {s : Session size n} (sound : s.fs.Sound home) {e : NewEntry} (fits : e.Fits)
    {fuel d nameHash count c k : Nat} (dir : (s.fs.volume home).DirCluster home c) (clocked : s.fs.setup.Clocked)
    (accepted : (encodeUtf16UpcaseAndHash e.name s.fs.upcaseTable : ExFat (Session size n) (Nat × Nat)) s =
      (.ok (nameHash, count), s))
    (found : (FileSystem.findEmptyDirEntrySet fuel d e.setLen s.fs).1 = .ok ((s.fs.volume home).slotLocation c k))
    (inside : k + e.setLen ≤ (s.fs.volume home).clusterSlots) :
    ∃ s', e.create fuel d s = (.ok (e.details s.fs.setup.now ((s.fs.volume home).slotLocation c k)), s') ∧
      s'.fs.Sound home ∧
      e.setLen = 2 + FileSystem.divCeil e.units.length 15 ∧
      (FileDirEntry.ofRaw ((s'.fs.volume home).entryAt ((s.fs.volume home).slotLocation c k))).setChecksum =
        setChecksum ((s'.fs.volume home).rawEntries c k e.setLen) ∧
      ∀ rounds, 0 < rounds → ∃ chain fs',
        newFromFileDetails (e.details s.fs.setup.now ((s.fs.volume home).slotLocation c k))
          s'.fs.fs s'.fs = (.ok chain, s'.fs) ∧
        FileSystem.scanning chain (nextFileEntry allPassFilter (some maxNameLen) rounds) s'.fs =
          (.ok (some ({ e.details s.fs.setup.now ((s.fs.volume home).slotLocation c k) with
            accessed := { s.fs.setup.now with increment10ms := 0 } }, encodeUtf8 e.name)), fs') := by
  obtain ⟨hash, rfl, named, _⟩ := encodeUtf16UpcaseAndHash_ok accepted
  have looks : FileSystem.Looks home s.fs _ := FileSystem.findEmptyDirEntrySet_looks fuel d e.setLen s.fs
  have search : FileSystem.Leads home (FileSystem.findEmptyDirEntrySet fuel d e.setLen) s.fs
      (.ok ((s.fs.volume home).slotLocation c k)) (s.fs.volume home) :=
    ⟨_, Prod.ext found rfl, (looks.served sound).sound, (looks.served sound).volume⟩
  obtain ⟨s', run, sound', shown⟩ := create_leads dir.stretch clocked fits.short accepted search inside
  have shown : s'.fs.volume home = _ := shown
  have length := length_raws fits.short nameHash s.fs.setup.now
  have count := (setLen_bounds fits.short).1
  have setup : (s'.fs.volume home).setup = (s.fs.volume home).tick.setup := by rw [shown, Volume.putEntries_setup]
  have dir' : (s'.fs.volume home).DirCluster home c := dir.tick.of_setup setup
  have slots : (s'.fs.volume home).clusterSlots = (s.fs.volume home).clusterSlots := by
    rw [Volume.clusterSlots, setup, ← Volume.clusterSlots, Volume.tick_clusterSlots]
  have place : (s'.fs.volume home).slotLocation c k = (s.fs.volume home).slotLocation c k := by
    rw [Volume.slotLocation_of_setup setup, Volume.tick_slotLocation]
  have entries : (s'.fs.volume home).rawEntries c k e.setLen = e.raws nameHash s.fs.setup.now := by
    rw [shown, ← length]
    exact dir.tick.rawEntries_putEntries
  have first : (s'.fs.volume home).entryAt ((s.fs.volume home).slotLocation c k) =
      e.primary nameHash s.fs.setup.now := by
    obtain ⟨m, more⟩ : ∃ m, e.setLen = m + 1 := ⟨e.setLen - 1, by omega⟩
    rw [more, Volume.rawEntries, List.range'_succ, List.map_cons, place] at entries
    exact (List.cons.inj entries).1
  refine ⟨s', run, sound', ?_, ?_, fun rounds some_ => ?_⟩
  · rw [count, length_nameRaws _ le_rfl]
  · rw [first, entries]
    exact primary_checksum fits clocked.now_fits nameHash
  · have total : (e.details s.fs.setup.now ((s.fs.volume home).slotLocation c k)).secondaryCount + 1 = e.setLen := by
      change e.setLen - 1 + 1 = e.setLen
      omega
    have here : (e.details s.fs.setup.now ((s.fs.volume home).slotLocation c k)).location =
        (s'.fs.volume home).slotLocation c k := place.symm
    obtain ⟨chain, opened, stands, limit⟩ :=
      newFromFileDetails_stands dir'.room dir'.layout dir'.inHeap.1 (by omega) sound' rfl here s'.fs
    rw [total] at limit
    have visits := stands.visits_limited dir' isEndOfDirectory e.setLen limit (by omega)
    rw [entries, ← toSet_raws fits hash named clocked.now_fits, ← List.append_nil (EntrySet.raws _)] at visits
    have nothing : DirectoryEntryChain.Passed allPassFilter (s'.fs.volume home).setup.upcaseTable [] [] :=
      ⟨by simp, by simp⟩
    obtain ⟨t, read, _⟩ := DirectoryEntryChain.nextFileEntry_found (some maxNameLen)
      (fun capacity same => (Option.some.inj same).le) nothing (NamedSet.passes_allPassFilter _ _) some_ visits
    refine ⟨chain, t.fs, opened, ?_⟩
    rw [toSet_details fits hash named clocked.now_fits] at read
    have whole := FileSystem.scanning_of_run read
    rw [List.flatMap_nil, List.append_nil, List.length_nil, Nat.add_zero, place] at whole
    exact whole

/-- A file called `ab`. -/
def smallEntry : NewEntry where
  name := ['a', 'b']
  firstCluster := 5
  attributes := { archive := true, hidden := true }
  flags := { allocationPossible := true, noFatChain := true }
  validDataLength := 7
  dataLength := 300

theorem created_entry_reads_back_small : ∃ s' : Session 512 1,
    smallEntry.create 20 2 ⟨File.smallVolume, .new⟩ = (.ok (smallEntry.details {} ⟨100, 0⟩), s') ∧
      ∃ chain fs', newFromFileDetails (smallEntry.details {} ⟨100, 0⟩) s'.fs.fs s'.fs = (.ok chain, s'.fs) ∧
        FileSystem.scanning chain (nextFileEntry allPassFilter (some maxNameLen) 1) s'.fs =
          (.ok (some (smallEntry.details {} ⟨100, 0⟩, [97, 98])), fs') := by
  have dir : (File.smallVolume.volume File.smallHome).DirCluster File.smallHome 2 :=
    ⟨by decide, File.smallVolume_layout, ⟨by decide, by decide⟩, fun i inside => by
      have first : i = 0 := Nat.lt_one_iff.mp inside
      subst first
      decide, by decide⟩
  have fits : smallEntry.Fits := ⟨by decide, by decide, by decide, by decide⟩
  have accepted : (encodeUtf16UpcaseAndHash smallEntry.name File.smallVolume.upcaseTable : ExFat
    (Session 512 1) (Nat × Nat))
      ⟨File.smallVolume, .new⟩ = (.ok (0, 2), ⟨File.smallVolume, .new⟩) := rfl
  have sound : File.smallVolume.Sound File.smallHome := FileSystem.sound_of_new _ rfl fun k => by cases k <;> rfl
  have found : (FileSystem.findEmptyDirEntrySet 20 2 smallEntry.setLen File.smallVolume).1 =
      .ok ((File.smallVolume.volume File.smallHome).slotLocation 2 0) := by decide +kernel
  have clocked : File.smallVolume.setup.Clocked := fun _ none_ => by cases none_
  obtain ⟨s', run, _, _, _, read⟩ :=
    created_entry_reads_back (s := ⟨File.smallVolume, .new⟩) sound fits dir clocked accepted
    found (by decide)
  exact ⟨s', run, read 1 Nat.one_pos⟩

end NewEntry

end ExFatSlim
