import ExFatSlim.Scanning

namespace ExFatSlim

/-- The boot sector as its bytes have it. -/
def BootSector.ofBlock {size : Nat} (value : Block size) : BootSector where
  fatOffset := value.le 80 4
  clusterHeapOffset := value.le 88 4
  clusterCount := value.le 92 4
  firstClusterOfRootDir := value.le 96 4
  bytesPerSector := 2 ^ value.le 108 1
  sectorsPerCluster := 2 ^ value.le 109 1

theorem state_of_respects {σ α : Type} {m : ExFat σ α} (pure_ : Exec.Respects (Eq : σ → σ → Prop) m) {s s' : σ}
    {r : Except (Fault ExFatError) α} (run : m s = (r, s')) : s = s' := by
  have same := pure_ s
  rwa [run] at same

theorem raise_or_eq_ok {σ α β : Type} {p : Prop} [Decidable p] {e : ExFatError} {f : β → ExFat σ α} {m : ExFat σ α}
    {s s' : σ} {a : α} (run : (if p then Exec.raise e >>= f else m) s = (.ok a, s')) : ¬ p ∧ m s = (.ok a, s') := by
  by_cases refused : p
  · rw [if_pos refused] at run
    cases run
  · rw [if_neg refused] at run
    exact ⟨refused, run⟩

/-- What an accepted boot sector has been checked for. -/
structure BootSector.Checked {size : Nat} (value : Block size) : Prop where
  long : 512 ≤ size
  sectorShift : 9 ≤ value.le 108 1 ∧ value.le 108 1 ≤ 12
  clusterShift : value.le 108 1 + value.le 109 1 ≤ 25

theorem BootSector.tryFrom_ok {σ : Type} {size : Nat} {value : Block size} {s s' : σ} {boot : BootSector}
    (run : (tryFrom value : ExFat σ BootSector) s = (.ok boot, s')) :
    boot = ofBlock value ∧ s = s' ∧ Checked value := by
  have state := state_of_respects (tryFrom_respects value) run
  obtain ⟨_, t, checked, run⟩ := Exec.bind_eq_ok.mp run
  obtain ⟨_, _, long, _⟩ := Exec.bind_eq_ok.mp checked
  obtain ⟨sectorShift, run⟩ := raise_or_eq_ok run
  obtain ⟨clusterShift, run⟩ := raise_or_eq_ok run
  cases run
  refine ⟨rfl, state, ?_, by omega, by omega⟩
  by_contra short
  rw [Exec.assert, if_neg short] at long
  cases long

theorem getHeapSectorId_ok {σ : Type} {fs : FileSystemDetails} {c sector : Nat} {s s' : σ}
    (run : (fs.getHeapSectorId c : ExFat σ Nat) s = (.ok sector, s')) :
    2 ≤ c ∧ sector = fs.clusterHeapOffset + (c - 2) * fs.sectorsPerCluster ∧ sector < 2 ^ 32 ∧ s = s' := by
  obtain ⟨id, run⟩ := raise_or_eq_ok run
  obtain ⟨small, rfl, same⟩ := u32_ok run
  exact ⟨by omega, rfl, small, same.symm⟩

namespace FileSystem

variable {size n : Nat} {fs fs' : FileSystem size n}

theorem devRead_ok {s : Nat} {b : Block size} (run : devRead s fs = (.ok b, fs')) :
    b = fs.dev.blocks s ∧ { fs with dev := fs.dev.afterRead } = fs' := by
  obtain ⟨_, _, ⟨⟩, run⟩ := Exec.bind_eq_ok.mp run
  obtain ⟨_, _, ⟨⟩, run⟩ := Exec.bind_eq_ok.mp run
  split at run
  · rename_i works
    cases run
    exact ⟨BlockDevice.fetched_of_succeeds works s, rfl⟩
  · cases run

theorem loadUpcaseTable_ok {c : Nat} {details : FileSystemDetails} {table : UpcaseTable}
    (run : loadUpcaseTable c details fs = (.ok table, fs')) :
    ∃ sector, 2 ≤ c ∧ sector = details.clusterHeapOffset + (c - 2) * details.sectorsPerCluster ∧ 
      { fs with dev := fs.dev.afterRead } = fs' ∧
      ∀ i : Fin 128, i.val < size / 2 → table.mapping i = (fs.dev.blocks sector).le (2 * i.val) 2 := by
  obtain ⟨sector, _, place, run⟩ := Exec.bind_eq_ok.mp run
  obtain ⟨low, equal, small, rfl⟩ := getHeapSectorId_ok place
  obtain ⟨b, _, read, run⟩ := Exec.bind_eq_ok.mp run
  obtain ⟨rfl, rfl⟩ := devRead_ok read
  cases run
  exact ⟨sector, low, equal, rfl, fun i inside => if_pos inside⟩

/-- What a mount that returns `Ok` has read and set. The root directory's first
sector has named an up-case table and a bitmap. -/
structure Mounts (fs fs' : FileSystem size n) : Prop where
  boot : BootSector.Checked (fs.dev.blocks 0)
  details : fs'.fs = .new (.ofBlock (fs.dev.blocks 0))
  mounted : fs'.isMounted = true
  fat : fs'.fat = { fs.fat with startOfFatSector := some fs'.fs.fatOffset }
  clusterCount : fs'.allocator.bitmap.clusterCount = fs'.fs.clusterCount
  caches : ∀ k, fs'.cacheOf k = fs.cacheOf k
  device : fs'.dev = fs.dev.afterRead.afterRead.afterRead
  root : ∃ found s, (scanRootEntries ((List.range (size / rawEntryLen)).map fun k =>
      (fs.dev.blocks (fs'.fs.clusterHeapOffset + (fs'.fs.firstClusterOfRootDir - 2) * fs'.fs.sectorsPerCluster)).chunk
        rawEntryLen k) {} :
      ExFat (FileSystem size n) RootEntries) s = (.ok found, s) ∧ 
    ∃ c ∈ found.upcase, ∀ i : Fin 128, fs'.upcaseTable.mapping i =
      (fs.dev.blocks (fs'.fs.clusterHeapOffset + (c - 2) * fs'.fs.sectorsPerCluster)).le (2 * i.val) 2

theorem mount_ok (fresh : fs.isMounted = false) (run : mount fs = (.ok (), fs')) : Mounts fs fs' := by
  obtain ⟨_, _, ⟨⟩, run⟩ := Exec.bind_eq_ok.mp run
  rw [fresh] at run
  obtain ⟨b, _, read, run⟩ := Exec.bind_eq_ok.mp run
  obtain ⟨rfl, rfl⟩ := devRead_ok read
  obtain ⟨boot, _, parsed, run⟩ := Exec.bind_eq_ok.mp run
  obtain ⟨rfl, rfl, checked⟩ := BootSector.tryFrom_ok parsed
  obtain ⟨sector, _, place, run⟩ := Exec.bind_eq_ok.mp run
  obtain ⟨low, rfl, small, rfl⟩ := getHeapSectorId_ok place
  obtain ⟨data, _, read, run⟩ := Exec.bind_eq_ok.mp run
  obtain ⟨rfl, rfl⟩ := devRead_ok read
  obtain ⟨found, t, scanned, run⟩ := Exec.bind_eq_ok.mp run
  obtain rfl := state_of_respects (scanRootEntries_respects _ _) scanned
  cases upcase : found.upcase with
  | none =>
    rw [upcase] at run
    cases run
  | some upcaseCluster =>
    rw [upcase] at run
    obtain ⟨labelled, run⟩ := raise_or_eq_ok run
    cases bitmap : found.bitmap with
    | none =>
      rw [bitmap] at run
      cases run
    | some extent =>
      rw [bitmap] at run
      obtain ⟨table, _, loaded, run⟩ := Exec.bind_eq_ok.mp run
      obtain ⟨_, _, rfl, rfl, mapping⟩ := loadUpcaseTable_ok loaded
      obtain ⟨_, _, ⟨⟩, run⟩ := Exec.bind_eq_ok.mp run
      obtain ⟨firstSector, _, place, run⟩ := Exec.bind_eq_ok.mp run
      obtain ⟨_, rfl, _, rfl⟩ := getHeapSectorId_ok place
      cases run
      have long := checked.long
      exact {
        boot := checked
        details := rfl
        mounted := rfl
        fat := rfl
        clusterCount := rfl
        caches := fun k => by cases k <;> rfl
        device := rfl
        root := ⟨found, _, scanned, upcaseCluster, upcase, fun i => mapping i (by omega)⟩ }

end FileSystem

/-- The sector where a cluster begins, as `get_heap_sector_id` returns it. -/
def FileSystemDetails.heapSector (fs : FileSystemDetails) (c : Nat) : Except (Fault ExFatError) Nat :=
  ((fs.getHeapSectorId c : ExFat Unit Nat) ()).1

/-- The geometry that the rest of the code counts on: clusters are made of
whole sectors of the device, the clusters of the heap have sector numbers, no
two share a sector, and cluster ids are 32-bit numbers. -/
structure FileSystemDetails.Usable (size : Nat) (fs : FileSystemDetails) : Prop where
  clusterLength : fs.clusterLength = size * fs.sectorsPerCluster
  defined : ∀ c, 2 ≤ c → c ≤ 1 + fs.clusterCount → ∃ sector, fs.heapSector c = .ok sector
  injective : ∀ c c' sector, 2 ≤ c → c ≤ 1 + fs.clusterCount → 2 ≤ c' → c' ≤ 1 + fs.clusterCount →
    fs.heapSector c = .ok sector → fs.heapSector c' = .ok sector → c = c'
  disjoint : ∀ c c' sector sector', 2 ≤ c → c ≤ 1 + fs.clusterCount → 2 ≤ c' → c' ≤ 1 + fs.clusterCount → c ≠ c' →
    fs.heapSector c = .ok sector → fs.heapSector c' = .ok sector' →
    sector + fs.sectorsPerCluster ≤ sector' ∨ sector' + fs.sectorsPerCluster ≤ sector
  ids : 2 + fs.clusterCount < 2 ^ 32

namespace FileSystemDetails

variable {fs : FileSystemDetails} {size : Nat}

theorem heapSector_of_lt {c : Nat} (low : 2 ≤ c)
    (small : fs.clusterHeapOffset + (c - 2) * fs.sectorsPerCluster < 2 ^ 32) :
    fs.heapSector c = .ok (fs.clusterHeapOffset + (c - 2) * fs.sectorsPerCluster) := by
  rw [heapSector, getHeapSectorId, if_neg (by omega), u32, if_pos small]
  rfl

theorem heapSector_ok {c sector : Nat} (found : fs.heapSector c = .ok sector) :
    2 ≤ c ∧ sector = fs.clusterHeapOffset + (c - 2) * fs.sectorsPerCluster ∧ sector < 2 ^ 32 := by
  obtain ⟨low, equal, small, _⟩ := getHeapSectorId_ok (Exec.run_of_fst found)
  exact ⟨low, equal, small⟩

/-- Clusters follow one another on the device. -/
theorem heapSector_lt {c c' sector sector' : Nat} (before : c < c') (found : fs.heapSector c = .ok sector)
    (found' : fs.heapSector c' = .ok sector') : sector + fs.sectorsPerCluster ≤ sector' := by
  obtain ⟨low, rfl, _⟩ := heapSector_ok found
  obtain ⟨_, rfl, _⟩ := heapSector_ok found'
  have apart : (c - 2 + 1) * fs.sectorsPerCluster ≤ (c' - 2) * fs.sectorsPerCluster :=
    Nat.mul_le_mul_right _ (by omega)
  rw [Nat.succ_mul] at apart
  omega

/-- It is enough that the sectors have the right length, and that the last
cluster and the ids are within 32 bits. -/
theorem usable_iff (some_ : 0 < fs.sectorsPerCluster) : fs.Usable size ↔
    fs.clusterLength = size * fs.sectorsPerCluster ∧
      (fs.clusterCount = 0 ∨ fs.clusterHeapOffset + (fs.clusterCount - 1) * fs.sectorsPerCluster < 2 ^ 32) ∧
      2 + fs.clusterCount < 2 ^ 32 := by
  constructor
  · rintro ⟨length, defined, _, _, ids⟩
    refine ⟨length, ?_, ids⟩
    by_cases none_ : fs.clusterCount = 0
    · exact Or.inl none_
    · obtain ⟨sector, found⟩ := defined (1 + fs.clusterCount) (by omega) (Nat.le_refl _)
      obtain ⟨_, rfl, small⟩ := heapSector_ok found
      rw [show 1 + fs.clusterCount - 2 = fs.clusterCount - 1 by omega] at small
      exact Or.inr small
  · rintro ⟨length, last, ids⟩
    refine ⟨length, ?_, ?_, ?_, ids⟩
    · intro c low high
      have below : (c - 2) * fs.sectorsPerCluster ≤ (fs.clusterCount - 1) * fs.sectorsPerCluster :=
        Nat.mul_le_mul_right _ (by omega)
      exact ⟨_, heapSector_of_lt low (by omega)⟩
    · intro c c' sector _ _ _ _ found found'
      rcases Nat.lt_trichotomy c c' with before | same | after
      · have apart := heapSector_lt before found found'
        omega
      · exact same
      · have apart := heapSector_lt after found' found
        omega
    · intro c c' sector sector' _ _ _ _ other found found'
      rcases Nat.lt_or_gt_of_ne other with before | after
      · exact Or.inl (heapSector_lt before found found')
      · exact Or.inr (heapSector_lt after found' found)

end FileSystemDetails

namespace FileSystem

variable {size n : Nat} {fs fs' : FileSystem size n}

/-- A mount that returns `Ok` has a usable geometry exactly when the boot
sector's own shift for the sector length is that of the device, the last cluster
begins below sector 2^32, and the ids of the clusters are below 2^32. -/
theorem mount_usable_iff (fresh : fs.isMounted = false) (run : mount fs = (.ok (), fs')) :
    fs'.fs.Usable size ↔
      2 ^ (fs.dev.blocks 0).le 108 1 = size ∧
      ((fs.dev.blocks 0).le 92 4 = 0 ∨
        (fs.dev.blocks 0).le 88 4 + ((fs.dev.blocks 0).le 92 4 - 1) * 2 ^ (fs.dev.blocks 0).le 109 1 < 2 ^ 32) ∧
      2 + (fs.dev.blocks 0).le 92 4 < 2 ^ 32 := by
  have mounts := mount_ok fresh run
  have some_ : 0 < 2 ^ (fs.dev.blocks 0).le 109 1 := Nat.two_pow_pos _
  rw [mounts.details, FileSystemDetails.usable_iff some_]
  have length : 2 ^ (fs.dev.blocks 0).le 108 1 * 2 ^ (fs.dev.blocks 0).le 109 1 =
    size * 2 ^ (fs.dev.blocks 0).le 109 1 ↔
      2 ^ (fs.dev.blocks 0).le 108 1 = size := Nat.mul_left_inj (Nat.ne_of_gt some_)
  exact and_congr_left' length

/-- The boot sector of a volume of eight clusters of one sector, whose FAT
begins at sector 20 and whose heap begins at sector 100. -/
def bootBlock (bytesPerSectorShift : UInt8) : Block 512 :=
  let blank : Block 512 := fun _ => 0
  ((((((blank.patch 0 [0xeb, 0x76, 0x90, 0x45, 0x58, 0x46, 0x41, 0x54, 0x20, 0x20, 0x20]).patch 80
    (leBytes 4 20)).patch 88
    (leBytes 4 100)).patch 92 (leBytes 4 8)).patch 96 (leBytes 4 2)).patch 108 [bytesPerSectorShift, 0]).patch
      510 [0x55, 0xaa]

/-- The first entries of its root directory: the bitmap is in cluster 3, the
up-case table in cluster 4, and the label is empty. -/
def systemEntries : List RawDirEntry :=
  let blank : RawDirEntry := fun _ => 0
  [((blank.patch 0 [0x81]).patch 20 (leBytes 4 3)).patch 24 (leBytes 8 1),
    (blank.patch 0 [0x82]).patch 20 (leBytes 4 4), blank.patch 0 [0x83]]

/-- Such a volume before it is mounted, with more entries in the root directory
and with these other sectors. -/
def unmountedVolume (bytesPerSectorShift : UInt8) (entries : List RawDirEntry) (sectors : Nat → Block 512) :
    FileSystem 512 1 :=
  .new ⟨fun s =>
    if s = 0 then bootBlock bytesPerSectorShift
    else if s = 100 then entrySector (systemEntries ++ entries)
    else sectors s, [], []⟩ 64

theorem mount_usable_iff_small : (mount (unmountedVolume 9 [] fun _ _ => 0)).2.fs.Usable 512 :=
  (mount_usable_iff rfl (Exec.run_of_fst (by decide +kernel))).mpr (by decide +kernel)

/-- Sectors of 4096 bytes are accepted on a device that has sectors of 512. -/
theorem mount_accepts_other_sectors :
    ∃ fs', mount (unmountedVolume 12 [] fun _ _ => 0) = (.ok (), fs') ∧ ¬ fs'.fs.Usable 512 := by
  refine ⟨_, Exec.run_of_fst (by decide +kernel), fun usable => ?_⟩
  have length := usable.clusterLength
  revert length
  decide +kernel

end FileSystem

end ExFatSlim
