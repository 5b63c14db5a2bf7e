import ExFatSlim.Splice

namespace ExFatSlim

theorem divCeil_le {a b c : Nat} (pos : 0 < b) : FileSystem.divCeil a b ≤ c ↔ a ≤ c * b := by
  rw [FileSystem.divCeil, ← Nat.lt_succ_iff, Nat.div_lt_iff_lt_mul pos, Nat.succ_mul]
  omega

theorem le_divCeil_mul {b : Nat} (pos : 0 < b) (a : Nat) : a ≤ FileSystem.divCeil a b * b :=
  (divCeil_le pos).mp le_rfl

theorem divCeil_sub_mul {b : Nat} (pos : 0 < b) (a n : Nat) :
    FileSystem.divCeil (a - n * b) b = FileSystem.divCeil a b - n := by
  refine Nat.le_antisymm ?_ ?_
  · rw [divCeil_le pos, Nat.sub_mul]
    exact Nat.sub_le_sub_right (le_divCeil_mul pos a) _
  · have least := le_divCeil_mul pos (a - n * b)
    rw [Nat.sub_le_iff_le_add, divCeil_le pos, Nat.add_mul]
    omega

theorem divCeil_max {c : Nat} (a b : Nat) :
    FileSystem.divCeil (max a b) c = max (FileSystem.divCeil a c) (FileSystem.divCeil b c) := by
  have mono : ∀ {a b : Nat}, a ≤ b → FileSystem.divCeil a c ≤ FileSystem.divCeil b c := by
    intro a b less
    exact Nat.div_le_div_right (by omega)
  rcases Nat.le_total a b with less | less
  · rw [Nat.max_eq_right less, Nat.max_eq_right (mono less)]
  · rw [Nat.max_eq_left less, Nat.max_eq_left (mono less)]

namespace Volume

variable {size : Nat} {home : Nat → CacheKind} {v v' : Volume size} {cs added : List Nat}

instance (v : Volume size) : DecidablePred v.IsFree := fun c => inferInstanceAs (Decidable (v.isFreeCluster c = true))

/-- The free clusters of the heap. -/
def freeClusters (v : Volume size) : Finset Nat := (Finset.Ico 2 v.endCluster).filter v.IsFree

theorem mem_freeClusters {c : Nat} : c ∈ v.freeClusters ↔ v.InHeap c ∧ v.IsFree c := by
  rw [freeClusters, Finset.mem_filter, Finset.mem_Ico]
  rfl

theorem card_freeClusters_le : v.freeClusters.card ≤ v.setup.bitmap.clusterCount := by
  refine (Finset.card_filter_le _ _).trans ?_
  rw [Nat.card_Ico, endCluster, Nat.add_sub_cancel_left]

/-- A disk is full only after all of its free clusters went to the chain. -/
theorem Extended.full (extended : Extended home cs added v v') (none_ : ∀ c, v'.InHeap c → ¬ v'.IsFree c) :
    v.freeClusters.card ≤ added.length := by
  have all : v.freeClusters ⊆ added.toFinset := by
    intro c member
    obtain ⟨inHeap, free⟩ := mem_freeClusters.mp member
    rw [List.mem_toFinset]
    by_contra outside
    exact none_ c (extended.inHeap.mpr inHeap) ((extended.free c inHeap).mpr ⟨free, outside⟩)
  exact (Finset.card_le_card all).trans (List.toFinset_card_le added)

/-- The bytes of a chain are not touched when it grows. -/
theorem Extended.fileByte (extended : Extended home cs added v v') (layout : Layout size home v.setup)
    (data : ∀ c ∈ cs, v.IsData home c) {i : Nat} (inside : i < cs.length * v.setup.details.clusterLength) :
    v'.fileByte (cs ++ added) i = v.fileByte cs i := by
  have details : v'.setup.details = v.setup.details := by rw [extended.setup]
  have index : i / size < cs.length * v.setup.details.sectorsPerCluster := by
    rw [Nat.div_lt_iff_lt_mul layout.pos, Nat.mul_assoc, Nat.mul_comm _ size, ← layout.clusterLength]
    exact inside
  have sector : v'.fileSector (cs ++ added) (i / size) = v.fileSector cs (i / size) := by
    obtain ⟨cluster, _⟩ := fileSector_cluster layout index
    simp only [fileSector, dataSector, details]
    rw [List.getD_append _ _ _ _ cluster]
  rw [Volume.fileByte, Volume.fileByte, sector, extended.data _ (fileSector_home layout data index)]

end Volume

namespace File

variable {cs added : List Nat} {file file' : File} {clusterLength : Nat}

theorem Denotes.append (denotes : Denotes clusterLength cs file) : Denotes clusterLength (cs ++ added) file := by
  have longer : ∀ {k c : Nat}, cs[k]? = some c → (cs ++ added)[k]? = some c := by
    intro k c here
    obtain ⟨inside, _⟩ := List.getElem?_eq_some_iff.mp here
    rw [List.getElem?_append_left inside, here]
  exact denotes.imp (fun inside => ⟨longer inside.1, inside.2⟩)
    fun past => ⟨past.1, past.2.1, past.2.2.1, longer past.2.2.2⟩

/-- The position of a handle is consistent with its chain. -/
def Positioned (clusterLength : Nat) (cs : List Nat) (file : File) : Prop :=
  (cs = [] ∧ file.cursor = 0 ∧ file.remainingBytesInCluster = 0) ∨ Denotes clusterLength cs file

theorem Extended.kept (extended : Extended clusterLength added file file') :
    file'.details = { file.details with flags := file'.details.flags } ∧ file'.cursor = file.cursor ∧
      file'.openOptions = file.openOptions := by
  rcases extended with ⟨_, same⟩ | ⟨_, _, grown⟩
  · rw [eq_of_bare same]
    exact ⟨rfl, rfl, rfl⟩
  · exact ⟨grown.details, grown.cursor, grown.options⟩

/-- Growth keeps the position, and places the handle of an empty file at its first cluster. -/
theorem Positioned.extended (positioned : Positioned clusterLength cs file) (empty : file.chain = .empty ↔ cs = [])
    (extended : Extended clusterLength added file file') (some_ : cs ++ added ≠ []) :
    Denotes clusterLength (cs ++ added) file' := by
  rcases extended with ⟨rfl, same⟩ | ⟨first, head, grown⟩
  · have file := eq_of_bare same
    rw [List.append_nil] at some_
    rw [file, List.append_nil]
    exact positioned.resolve_left fun nothing => some_ nothing.1
  · rcases positioned with ⟨rfl, cursor, _⟩ | denotes
    · obtain ⟨cluster, remaining⟩ := grown.start (empty.mpr rfl)
      refine Or.inl ⟨?_, ?_⟩
      · rw [grown.cursor, cursor, Nat.zero_div, cluster, List.nil_append, ← List.head?_eq_getElem?, head]
      · rw [grown.cursor, cursor, remaining, Nat.zero_mod, Nat.sub_zero]
    · have nonempty : file.chain ≠ .empty := by
        rw [Ne, empty]
        rintro rfl
        rcases denotes with inside | past
        · simp [Inside] at inside
        · simp [Past] at past
      obtain ⟨cluster, remaining⟩ := grown.place nonempty
      have same : Denotes clusterLength cs file' := by
        simpa only [Denotes, Inside, Past, grown.cursor, cluster, remaining] using denotes
      exact same.append

end File

namespace FileSession

open File

variable {size n : Nat} {home : Nat → CacheKind} {s s' : FileSession size n} {cs added : List Nat}

/-- The bytes that the chain has room for by the length of the file. -/
def capacity (s : FileSession size n) : Nat :=
  FileSystem.divCeil s.file.details.dataLength s.fs.fs.clusterLength * s.fs.fs.clusterLength

/-- The clusters that `write` allocates before it puts `length` bytes. -/
def reserve (length : Nat) : ExFat (FileSession size n) Unit := do
  let s ← get
  if s.capacity < s.file.cursor + length then
    allocateClustersFor ((s.file.cursor + length - s.capacity) % 2 ^ s.fs.usizeBits)

theorem reserve_of_lt {length : Nat} (more : s.capacity < s.file.cursor + length) :
    reserve length s = allocateClustersFor ((s.file.cursor + length - s.capacity) % 2 ^ s.fs.usizeBits) s := by
  rw [reserve, Exec.bind_of_ok (Exec.get_apply s), if_pos more]

theorem reserve_of_le {length : Nat} (enough : s.file.cursor + length ≤ s.capacity) :
    reserve length s = (.ok (), s) := by
  rw [reserve, Exec.bind_of_ok (Exec.get_apply s), if_neg (Nat.not_lt.mpr enough)]
  rfl

/-- What `write` does when its arithmetic does not overflow. -/
theorem write_eq (mounted : s.fs.isMounted = true) (enabled : s.file.openOptions.write = true) {buf : List UInt8}
    (nonempty : buf ≠ [])
    (capacity : s.capacity < 2 ^ 64) (fits : s.file.cursor + buf.length < 2 ^ 64) :
    write buf s = (reserve buf.length >>= fun _ => updateDataLength buf.length >>= fun _ => writeBytes buf) s := by
  rw [write, if_neg (by simpa using nonempty), Exec.bind_of_ok (mount_run mounted),
    Exec.bind_of_ok (Exec.get_apply s)]
  rw [enabled, if_neg (by simp)]
  refine (Exec.bind_of_ok (u64_of_lt capacity s)).trans ((Exec.bind_of_ok (u64_of_lt fits s)).trans ?_)
  by_cases more : s.capacity < s.file.cursor + buf.length
  · refine (congrFun (if_pos more) s).trans ?_
    rw [Exec.bind_apply, Exec.bind_apply, reserve_of_lt more]
  · refine (congrFun (if_neg more) s).trans ?_
    rw [Exec.bind_of_ok (reserve_of_le (Nat.le_of_not_lt more))]

/-- A write that would end after `2 ^ 64` bytes does not start. -/
theorem write_overflows (mounted : s.fs.isMounted = true) (enabled : s.file.openOptions.write = true)
    {buf : List UInt8}
    (nonempty : buf ≠ []) (capacity : s.capacity < 2 ^ 64) (large : 2 ^ 64 ≤ s.file.cursor + buf.length) :
    write buf s = (.error .panic, s) := by
  rw [write, if_neg (by simpa using nonempty), Exec.bind_of_ok (mount_run mounted),
    Exec.bind_of_ok (Exec.get_apply s),
    enabled, if_neg (by simp)]
  exact (Exec.bind_of_ok (u64_of_lt capacity s)).trans (Exec.bind_of_error (u64_of_le large s))

/-- A handle that is not open for writing refuses it. -/
theorem write_refused (mounted : s.fs.isMounted = true) (disabled : s.file.openOptions.write = false)
    {buf : List UInt8}
    (nonempty : buf ≠ []) : write buf s = (.error (.error .writeNotEnabled), s) := by
  rw [write, if_neg (by simpa using nonempty), Exec.bind_of_ok (mount_run mounted),
    Exec.bind_of_ok (Exec.get_apply s),
    disabled, if_pos (by simp)]
  rfl

theorem updateDataLength_run {numBytes : Nat} (fits : s.file.cursor + numBytes < 2 ^ 64) :
    updateDataLength numBytes s = (.ok (), ⟨s.fs, { s.file with
      details := { s.file.details with
        validDataLength := max (s.file.cursor + numBytes) s.file.details.validDataLength
        dataLength := max (max (s.file.cursor + numBytes) s.file.details.validDataLength) s.file.details.dataLength }
      touched := { s.file.touched with isDirEntryDirty := true } }⟩) := by
  rw [updateDataLength, Exec.bind_of_ok (Exec.get_apply s), Exec.bind_of_ok (u64_of_lt fits s)]
  rfl

/-- With enough free clusters, the chain grows to what the write needs. -/
theorem Holds.reserve (holds : Holds home cs s)
    (clusters : cs.length = FileSystem.divCeil s.file.details.dataLength s.fs.fs.clusterLength)
    (inside : s.file.cursor ≤ s.file.details.dataLength) {length : Nat} (addressable : length < 2 ^ s.fs.usizeBits)
    (space : FileSystem.divCeil (s.file.cursor + length) s.fs.fs.clusterLength ≤
      cs.length + (s.fs.volume home).freeClusters.card) :
    ∃ s' added, reserve length s = (.ok (), s') ∧ Holds home (cs ++ added) s' ∧
      Volume.Extended home cs added (s.fs.volume home) (s'.fs.volume home) ∧
      File.Extended s.fs.fs.clusterLength added s.file s'.file ∧
      cs.length + added.length =
        max cs.length (FileSystem.divCeil (s.file.cursor + length) s.fs.fs.clusterLength) := by
  obtain ⟨_, pos, _⟩ := holds.clusterLength
  have capacity : s.capacity = cs.length * s.fs.fs.clusterLength := by rw [FileSession.capacity, clusters]
  have inChain : s.file.details.dataLength ≤ cs.length * s.fs.fs.clusterLength := by
    rw [clusters]
    exact le_divCeil_mul pos _
  by_cases more : s.capacity < s.file.cursor + length
  · have missing := divCeil_sub_mul pos (s.file.cursor + length) cs.length
    have some_ : ¬ FileSystem.divCeil (s.file.cursor + length) s.fs.fs.clusterLength ≤ cs.length := by
      rw [divCeil_le pos]
      omega
    have few : (s.fs.volume home).freeClusters.card ≤ s.fs.setup.bitmap.clusterCount :=
      Volume.card_freeClusters_le
    have ids := holds.layout.ids
    simp only [Fat.clusterLen] at ids
    rw [reserve_of_lt more, Nat.mod_eq_of_lt (by omega), capacity, allocateClustersFor,
      Exec.bind_of_ok (Exec.get_apply s), missing, Nat.mod_eq_of_lt (by omega)]
    obtain ⟨r, s', added, run, grew⟩ := allocateRuns_spec (FileSystem.divCeil (s.file.cursor + length)
      s.fs.fs.clusterLength - cs.length + 1) holds (by omega) (Nat.le_succ _)
    rcases grew.outcome with ⟨rfl, all⟩ | ⟨_, fewer, none_⟩
    · exact ⟨s', added, run, grew.holds, grew.volume, grew.file, by omega⟩
    · have full := grew.volume.full none_
      omega
  · have enough : FileSystem.divCeil (s.file.cursor + length) s.fs.fs.clusterLength ≤ cs.length := by
      rw [divCeil_le pos]
      omega
    refine ⟨s, [], reserve_of_le (by omega), ?_, .refl _ _, Or.inl ⟨rfl, rfl⟩, ?_⟩
    · rw [List.append_nil]
      exact holds
    · rw [List.length_nil]
      omega

/-- A handle that `write` may be called on. -/
structure Writable (home : Nat → CacheKind) (cs : List Nat) (s : FileSession size n) : Prop extends
    Holds home cs s where
  enabled : s.file.openOptions.write = true
  clusters : cs.length = FileSystem.divCeil s.file.details.dataLength s.fs.fs.clusterLength
  position : Positioned s.fs.fs.clusterLength cs s.file
  cursor : s.file.cursor ≤ s.file.details.validDataLength
  valid : s.file.details.validDataLength ≤ s.file.details.dataLength

/-- What a write of `buf` is for: the chain is that of `cs` and `added`, the
bytes of the file along it are the old ones with `buf` at the cursor, and the
handle can be written to again. -/
structure Splices (home : Nat → CacheKind) (cs added : List Nat) (buf : List UInt8) (s s' : FileSession size n) :
    Prop where
  writable : Writable home (cs ++ added) s'
  written : ∀ i (inside : i < buf.length),
    (s'.fs.volume home).fileByte (cs ++ added) (s.file.cursor + i) = buf[i]
  kept : ∀ i < s.file.details.validDataLength, i < s.file.cursor ∨ s.file.cursor + buf.length ≤ i →
    (s'.fs.volume home).fileByte (cs ++ added) i = (s.fs.volume home).fileByte cs i
  validDataLength :
    s'.file.details.validDataLength = max s.file.details.validDataLength (s.file.cursor + buf.length)
  dataLength : s'.file.details.dataLength = max s.file.details.dataLength (s.file.cursor + buf.length)
  cursor : s'.file.cursor = s.file.cursor + buf.length

/-- The state in which `write` starts to put the bytes. -/
structure Prepared (home : Nat → CacheKind) (cs added : List Nat) (buf : List UInt8) (s s' : FileSession size n) :
    Prop where
  holds : Holds home (cs ++ added) s'
  clusterLength : s'.fs.fs.clusterLength = s.fs.fs.clusterLength
  bytes : ∀ i < cs.length * s.fs.fs.clusterLength,
    (s'.fs.volume home).fileByte (cs ++ added) i = (s.fs.volume home).fileByte cs i
  denotes : Denotes s'.fs.fs.clusterLength (cs ++ added) s'.file
  cursor : s'.file.cursor = s.file.cursor
  options : s'.file.openOptions = s.file.openOptions
  validDataLength :
    s'.file.details.validDataLength = max s.file.details.validDataLength (s.file.cursor + buf.length)
  dataLength : s'.file.details.dataLength = max s.file.details.dataLength (s.file.cursor + buf.length)
  clusters : (cs ++ added).length = FileSystem.divCeil s'.file.details.dataLength s'.fs.fs.clusterLength
  room : s'.file.cursor + buf.length ≤ (cs ++ added).length * s'.fs.fs.clusterLength

theorem Writable.prepare (writable : Writable home cs s) {buf : List UInt8} (nonempty : buf ≠ [])
    (addressable : buf.length < 2 ^ s.fs.usizeBits)
    (space : FileSystem.divCeil (s.file.cursor + buf.length) s.fs.fs.clusterLength ≤
      cs.length + (s.fs.volume home).freeClusters.card) :
    ∃ s' added, write buf s = writeBytes buf s' ∧ Prepared home cs added buf s s' := by
  have holds := writable.toHolds
  obtain ⟨_, pos, _⟩ := holds.clusterLength
  have some_ : 0 < buf.length := List.length_pos_iff.mpr nonempty
  have cursor := writable.cursor
  have valid := writable.valid
  obtain ⟨s₁, added, run₁, holds₁, extended, grown, length⟩ :=
    holds.reserve writable.clusters (by omega) addressable space
  obtain ⟨details₁, cursor₁, options₁⟩ := grown.kept
  have clusterLength₁ : s₁.fs.fs.clusterLength = s.fs.fs.clusterLength := by
    have setup := extended.setup
    exact congrArg (fun u : Setup => u.details.clusterLength) setup
  have whole := holds₁.capacity
  rw [clusterLength₁, List.length_append, length] at whole
  have needed : s.file.cursor + buf.length ≤
      max cs.length (FileSystem.divCeil (s.file.cursor + buf.length) s.fs.fs.clusterLength) * s.fs.fs.clusterLength :=
    (divCeil_le pos).mp (Nat.le_max_right _ _)
  have written := write_eq holds.layout.mounted writable.enabled nonempty
    (by rw [capacity, ← writable.clusters]; exact holds.capacity) (by omega)
  rw [Exec.bind_of_ok run₁, Exec.bind_of_ok (updateDataLength_run (by omega))] at written
  have valid₁ : s₁.file.details.validDataLength = s.file.details.validDataLength := by rw [details₁]
  have data₁ : s₁.file.details.dataLength = s.file.details.dataLength := by rw [details₁]
  have denotes : Denotes s.fs.fs.clusterLength (cs ++ added) s₁.file := by
    refine writable.position.extended (lists_empty holds.owns.lists) grown ?_
    rw [← List.length_pos_iff, List.length_append, length, Nat.pos_iff_ne_zero]
    intro none_
    rw [none_, Nat.zero_mul] at needed
    omega
  refine ⟨_, added, written, holds₁.rewritten holds₁.sound (.refl _) rfl rfl, clusterLength₁,
    fun i inside => extended.fileByte holds.layout holds.owns.data inside, ?_, cursor₁, options₁, ?_, ?_, ?_, ?_⟩
  · rw [clusterLength₁]
    exact denotes
  · dsimp only
    rw [valid₁, cursor₁, Nat.max_comm]
  · dsimp only
    rw [valid₁, data₁, cursor₁]
    omega
  · dsimp only
    rw [valid₁, data₁, cursor₁, clusterLength₁, List.length_append, length, writable.clusters, ← divCeil_max]
    congr 1
    omega
  · dsimp only
    rw [cursor₁, clusterLength₁, List.length_append, length]
    exact needed

theorem Writable.splices (writable : Writable home cs s) {buf : List UInt8} (nonempty : buf ≠ [])
    (addressable : buf.length < 2 ^ s.fs.usizeBits)
    (space : FileSystem.divCeil (s.file.cursor + buf.length) s.fs.fs.clusterLength ≤
      cs.length + (s.fs.volume home).freeClusters.card)
    (smooth : ¬ Trips size s.fs.fs.clusterLength s.file.cursor buf.length) :
    ∃ s' added, write buf s = (.ok (), s') ∧ Splices home cs added buf s s' := by
  obtain ⟨s₁, added, run₁, ready⟩ := writable.prepare nonempty addressable space
  obtain ⟨_, pos, _⟩ := writable.toHolds.clusterLength
  rw [← ready.clusterLength, ← ready.cursor] at smooth
  obtain ⟨s', run', put, settled⟩ := writeBytes_put ready.holds ready.denotes nonempty ready.room smooth
  have bytes : ∀ i < (cs ++ added).length * s₁.fs.fs.clusterLength, _ := put.spliced.bytes
  have room := ready.room
  rw [ready.cursor] at bytes room
  rw [ready.clusterLength] at bytes room
  have cursor := writable.cursor
  have valid := writable.valid
  have inChain : s.file.details.dataLength ≤ cs.length * s.fs.fs.clusterLength := by
    rw [writable.clusters]
    exact le_divCeil_mul pos _
  have longer : cs.length * s.fs.fs.clusterLength ≤ (cs ++ added).length * s.fs.fs.clusterLength := by
    rw [List.length_append]
    exact Nat.mul_le_mul_right _ (Nat.le_add_right _ _)
  refine ⟨s', added, run₁.trans run', ⟨put.holds, ?_, ?_, Or.inr ?_, ?_, ?_⟩, ?_, ?_, ?_, ?_, ?_⟩
  · rw [put.moved.options, ready.options]
    exact writable.enabled
  · rw [put.moved.details, put.clusterLength]
    exact ready.clusters
  · rw [put.clusterLength]
    exact settled.denotes
  · rw [put.cursor, put.moved.details, ready.validDataLength, ready.cursor]
    exact Nat.le_max_right _ _
  · rw [put.moved.details, ready.validDataLength, ready.dataLength]
    omega
  · intro i inside
    rw [bytes _ (by omega), if_pos (by omega), Nat.add_sub_cancel_left, List.getElem?_eq_getElem inside,
      Option.getD_some]
  · intro i before outside
    rw [bytes i (by omega), if_neg (by omega), ready.bytes i (by omega)]
  · rw [put.moved.details, ready.validDataLength]
  · rw [put.moved.details, ready.dataLength]
  · rw [put.cursor, ready.cursor]

/-- A write that trips does not return. -/
theorem Writable.panics (writable : Writable home cs s) {buf : List UInt8} (nonempty : buf ≠ [])
    (addressable : buf.length < 2 ^ s.fs.usizeBits)
    (space : FileSystem.divCeil (s.file.cursor + buf.length) s.fs.fs.clusterLength ≤
      cs.length + (s.fs.volume home).freeClusters.card)
    (trips : Trips size s.fs.fs.clusterLength s.file.cursor buf.length) :
    ∃ s', write buf s = (.error .panic, s') := by
  obtain ⟨s₁, added, run₁, ready⟩ := writable.prepare nonempty addressable space
  rw [← ready.clusterLength, ← ready.cursor] at trips
  obtain ⟨s', panics⟩ := writeBytes_panics ready.holds ready.denotes nonempty ready.room trips
  exact ⟨s', run₁.trans panics⟩

end FileSession

namespace File

open FileSession

variable {size n : Nat} {home : Nat → CacheKind} {s : FileSession size n} {cs : List Nat}

/-- A write splices its bytes into the file exactly when it does not trip over
the start of a cluster. -/
theorem write_splices_iff (writable : Writable home cs s) {buf : List UInt8} (nonempty : buf ≠ [])
    (addressable : buf.length < 2 ^ s.fs.usizeBits)
    (space : FileSystem.divCeil (s.file.cursor + buf.length) s.fs.fs.clusterLength ≤
      cs.length + (s.fs.volume home).freeClusters.card) :
    (∃ s' added, write buf s = (.ok (), s') ∧ Splices home cs added buf s s') ↔
      ¬ Trips size s.fs.fs.clusterLength s.file.cursor buf.length := by
  constructor
  · rintro ⟨s', _, run, _⟩ trips
    obtain ⟨s₁, panics⟩ := writable.panics nonempty addressable space trips
    rw [panics] at run
    cases run
  · exact writable.splices nonempty addressable space

/-- Eight free clusters of one sector each, their bitmap in sector 10 and the FAT in sector 20. -/
def smallVolume : FileSystem 512 1 :=
  { FileSystem.new ⟨fun _ _ => 0, [], []⟩ 64 with
    isMounted := true
    fs := ⟨100, 20, 1, 512, 8, 2⟩
    allocator := { bitmap := ⟨10, 1, 8⟩, cache := .new, nextSearchCluster := 2 }
    fat := { startOfFatSector := some 20, cache := .new } }

def smallHome (s : Nat) : CacheKind := if s = 10 then .bitmap else if s = 20 then .fat else .data

/-- A handle of an empty file, as `open` returns it for writing. -/
def emptyFile : File where
  details :=
    { firstCluster := noClusterId, dataLength := 0, validDataLength := 0, attributes := { archive := true }
      location := ⟨100, 0⟩, flags := { allocationPossible := true, noFatChain := true }, secondaryCount :=
        2, created := {}, modified := {}, accessed := {} }
  currentCluster := noClusterId
  remainingBytesInCluster := 0
  cursor := 0
  openOptions := { write := true }
  chain := .empty
  touched := .new

theorem smallVolume_layout : Layout 512 smallHome smallVolume.setup where
  pos := by decide
  words := by decide
  covers := by decide
  padding := by decide
  sectors := by decide
  mounted := rfl
  ids := by decide
  fat := by
    refine ⟨20, rfl, fun c low high => ?_⟩
    have small : c < 10 := high
    have quotient : c / Fat.numEntries 512 = 0 := by
      simp only [Fat.numEntries, Fat.entrySize]
      omega
    rw [quotient]
    decide
  sectorsPerCluster := by decide
  clusterLength := by decide
  clusterBound := by decide
  heap := by decide

theorem emptyFile_writable : Writable smallHome [] (⟨smallVolume, emptyFile⟩ : FileSession 512 1) where
  sound := FileSystem.sound_of_new _ rfl fun k => by cases k <;> rfl
  layout := smallVolume_layout
  search := by decide
  room c inHeap _ i inside := by
    have one : i < 1 := inside
    have high : c < 10 := inHeap.2
    have sector : (smallVolume.volume smallHome).dataSector c i = 100 + (c - 2) * 1 + i := rfl
    rw [sector, smallHome, if_neg (by omega), if_neg (by omega)]
  owns := ⟨rfl, fun flag => (by cases flag), fun _ _ _ fat => (by cases fat), .nil, by simp, by simp, by simp⟩
  enabled := rfl
  clusters := rfl
  position := Or.inl ⟨rfl, rfl, rfl⟩
  cursor := le_rfl
  valid := le_rfl

theorem smallVolume_free : 2 ≤ (smallVolume.volume smallHome).freeClusters.card := by
  have some_ : ({2, 3} : Finset Nat) ⊆ (smallVolume.volume smallHome).freeClusters := by
    have first : (smallVolume.volume smallHome).IsFree 2 := by unfold Volume.IsFree; decide
    have second : (smallVolume.volume smallHome).IsFree 3 := by unfold Volume.IsFree; decide
    intro c member
    rw [Volume.mem_freeClusters]
    rcases Finset.mem_insert.mp member with rfl | member
    · exact ⟨⟨by decide, by decide⟩, first⟩
    · rw [Finset.mem_singleton.mp member]
      exact ⟨⟨by decide, by decide⟩, second⟩
  exact Finset.card_le_card some_

theorem write_splices_iff_one_cluster :
    ∃ s' added, write (List.replicate 512 7) (⟨smallVolume, emptyFile⟩ : FileSession 512 1) = (.ok (), s') ∧
      Splices smallHome [] added (List.replicate 512 7) ⟨smallVolume, emptyFile⟩ s' := by
  have length : (List.replicate 512 (7 : UInt8)).length = 512 := List.length_replicate
  have some_ : List.replicate 512 (7 : UInt8) ≠ [] := List.ne_nil_of_length_pos (by rw [length]; decide)
  have space : FileSystem.divCeil (0 + 512) 512 ≤ 0 + (smallVolume.volume smallHome).freeClusters.card :=
    (by decide : FileSystem.divCeil (0 + 512) 512 ≤ 2).trans (by rw [Nat.zero_add]; exact smallVolume_free)
  refine (write_splices_iff emptyFile_writable some_ (by rw [length]; decide) (by rw [length]; exact space)).mpr ?_
  rw [length]
  decide

/-- One byte more than a cluster. -/
theorem write_trips_after_one_cluster :
    Writable smallHome [] (⟨smallVolume, emptyFile⟩ : FileSession 512 1) ∧
      FileSystem.divCeil 513 smallVolume.fs.clusterLength ≤ (smallVolume.volume smallHome).freeClusters.card ∧
      (∃ s', write (List.replicate 513 7) (⟨smallVolume, emptyFile⟩ : FileSession 512 1) = (.error .panic, s')) ∧
      ¬ ∃ s' added, write (List.replicate 513 7) (⟨smallVolume, emptyFile⟩ : FileSession 512 1) = (.ok (), s') ∧
        Splices smallHome [] added (List.replicate 513 7) ⟨smallVolume, emptyFile⟩ s' := by
  have length : (List.replicate 513 (7 : UInt8)).length = 513 := List.length_replicate
  have some_ : List.replicate 513 (7 : UInt8) ≠ [] := List.ne_nil_of_length_pos (by rw [length]; decide)
  have space : FileSystem.divCeil 513 smallVolume.fs.clusterLength ≤
      (smallVolume.volume smallHome).freeClusters.card := le_trans (by decide) smallVolume_free
  have panics : ∃ s', write (List.replicate 513 7) (⟨smallVolume, emptyFile⟩ : FileSession 512 1) =
      (.error .panic, s') := by
    refine emptyFile_writable.panics some_ (by rw [length]; decide) ?_ (by rw [length]; decide)
    rw [length, List.length_nil, Nat.zero_add]
    exact space
  refine ⟨emptyFile_writable, space, panics, ?_⟩
  rintro ⟨s', added, run, _⟩
  obtain ⟨s₁, stopped⟩ := panics
  rw [stopped] at run
  cases run

end File

end ExFatSlim
