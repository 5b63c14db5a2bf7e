import ExFatSlim.Reading

namespace ExFatSlim

namespace Volume

variable {size : Nat} {home : Nat → CacheKind} {v v' : Volume size} {cs ts : List Nat}

/-- A sector of another cluster is none of the file's. -/
theorem dataSector_apart (layout : Layout size home v.setup) (inHeap : ∀ c ∈ ts, v.InHeap c) {c i l : Nat}
    (low : 2 ≤ c) (other : c ∉ ts)
    (insideI : i < v.setup.details.sectorsPerCluster) (insideL : l < ts.length * v.setup.details.sectorsPerCluster) :
    v.dataSector c i ≠ v.fileSector ts l := by
  obtain ⟨index, offset⟩ := fileSector_cluster layout insideL
  rw [fileSector, List.getD_eq_getElem _ _ index]
  intro same
  exact other ((dataSector_inj low (inHeap _ (List.getElem_mem index)).1 insideI offset same).1 ▸
    List.getElem_mem index)

theorem fileSector_apart (layout : Layout size home v.setup) (inHeap : ∀ c ∈ cs, v.InHeap c)
    (inHeap' : ∀ c ∈ ts, v.InHeap c)
    (apart : ∀ c ∈ ts, c ∉ cs) {k l : Nat} (insideK : k < cs.length * v.setup.details.sectorsPerCluster)
    (insideL : l < ts.length * v.setup.details.sectorsPerCluster) : v.fileSector cs k ≠ v.fileSector ts l := by
  obtain ⟨index, offset⟩ := fileSector_cluster layout insideK
  rw [fileSector, List.getD_eq_getElem _ _ index]
  exact dataSector_apart layout inHeap' (inHeap _ (List.getElem_mem index)).1
    (fun member => apart _ member (List.getElem_mem index))
    offset insideL

/-- Clusters in a row have their sectors in a row. -/
theorem fileSector_range' (layout : Layout size home v.setup) {first count k : Nat} (low : 2 ≤ first)
    (inside : k < count * v.setup.details.sectorsPerCluster) :
    v.fileSector (List.range' first count) k = v.dataSector first 0 + k := by
  have index : k / v.setup.details.sectorsPerCluster < count :=
    (Nat.div_lt_iff_lt_mul layout.sectorsPerCluster).mpr inside
  have split := Nat.div_add_mod k v.setup.details.sectorsPerCluster
  have cluster : first + 1 * (k / v.setup.details.sectorsPerCluster) - 2 =
    first - 2 + k / v.setup.details.sectorsPerCluster := by omega
  rw [fileSector, List.getD_eq_getElem _ _ (by rw [List.length_range']; exact index), List.getElem_range',
    dataSector, dataSector,
    cluster, Nat.add_mul, Nat.mul_comm (k / _)]
  omega

end Volume

namespace FileSession

open File Volume

variable {size n : Nat} {home : Nat → CacheKind} {s s' s'' : FileSession size n} {cs ts : List Nat} {start m : Nat}

/-- A handle that can be read still can when only data were written. -/
theorem Readable.rewritten (readable : Readable home cs s) (sound : s'.fs.Sound home)
    (volume : Rewritten home (s.fs.volume home) (s'.fs.volume home)) (file : s'.file.bare = s.file.bare) :
    Readable home cs s' := by
  have length : s'.fs.fs.clusterLength = s.fs.fs.clusterLength :=
    congrArg (fun u : Setup => u.details.clusterLength) volume.setup
  have file := eq_of_bare file
  refine ⟨readable.toHolds.rewritten sound volume (by rw [file]; rfl) (by rw [file]; rfl), ?_, ?_, ?_, ?_⟩
  · rw [file]
    exact readable.enabled
  · rw [file, length]
    exact readable.clusters
  · rw [file]
    exact readable.valid
  · rw [file, length]
    exact readable.position

/-- Clusters that a copy of the file goes to, with their sectors in a row from `start` on. -/
structure Target (home : Nat → CacheKind) (cs ts : List Nat) (start : Nat) (s : FileSession size n) : Prop where
  distinct : ts.Nodup
  inHeap : ∀ c ∈ ts, (s.fs.volume home).InHeap c
  data : ∀ c ∈ ts, (s.fs.volume home).IsData home c
  apart : ∀ c ∈ ts, c ∉ cs
  room : s.file.details.dataLength ≤ ts.length * s.fs.fs.clusterLength
  inRow : ∀ k < ts.length * s.fs.fs.sectorsPerCluster, (s.fs.volume home).fileSector ts k = start + k

/-- A state of the loop of `copy_to`: the first `m` sectors are copied, and nothing else has changed. -/
structure Copied (home : Nat → CacheKind) (cs ts : List Nat) (m : Nat) (s s' : FileSession size n) : Prop where
  readable : Readable home cs s'
  moved : Moved s.file s'.file
  cursor : s'.file.cursor = min (m * size) s.file.details.dataLength
  rewritten : Rewritten home (s.fs.volume home) (s'.fs.volume home)
  foreign : ∀ t, (∀ k < ts.length * s.fs.fs.sectorsPerCluster, t ≠ (s.fs.volume home).fileSector ts k) →
    (s'.fs.volume home).sectors t = (s.fs.volume home).sectors t
  bytes : ∀ i < s'.file.cursor, (s'.fs.volume home).fileByte ts i = contentByte (s.fs.volume home) cs s.file i

theorem Readable.copied_nil (readable : Readable home cs s) (begin : s.file.cursor = 0) :
    Copied home cs ts 0 s s where
  readable := readable
  moved := .refl _
  cursor := by rw [begin, Nat.zero_mul, Nat.zero_min]
  rewritten := .refl _
  foreign _ _ := rfl
  bytes i before := absurd (begin ▸ before) (Nat.not_lt_zero i)

section Loop

variable (target : Target home cs ts start s)

include target

/-- The number of a sector of the file is one of the target's. -/
theorem Target.sector_lt (layout : Layout size home s.fs.setup) (more : m * size < s.file.details.dataLength) :
    m < ts.length * s.fs.fs.sectorsPerCluster := by
  have room := target.room
  have length : s.fs.fs.clusterLength = size * s.fs.fs.sectorsPerCluster := layout.clusterLength
  rw [length, Nat.mul_comm size, ← Nat.mul_assoc] at room
  exact Nat.lt_of_mul_lt_mul_right (more.trans_le room)

/-- The source is not touched. -/
theorem Copied.content (copied : Copied home cs ts m s s') (readable : Readable home cs s) {i : Nat}
    (inside : i < s.file.details.dataLength) :
    contentByte (s'.fs.volume home) cs s'.file i = contentByte (s.fs.volume home) cs s.file i := by
  have layout := readable.layout
  have fits := readable.fits
  have length : s.fs.fs.clusterLength = size * s.fs.fs.sectorsPerCluster := layout.clusterLength
  have sector : i / size < cs.length * s.fs.fs.sectorsPerCluster := by
    rw [Nat.div_lt_iff_lt_mul layout.pos, Nat.mul_assoc, Nat.mul_comm _ size, ← length]
    omega
  have same : (s'.fs.volume home).fileSector cs (i / size) = (s.fs.volume home).fileSector cs (i / size) := by
    rw [fileSector, fileSector, dataSector, dataSector, copied.rewritten.setup]
  rw [contentByte, contentByte, copied.moved.details, fileByte, fileByte, same, copied.foreign _ fun k insideK =>
    fileSector_apart layout readable.owns.inHeap target.inHeap target.apart sector insideK]

/-- One round of the loop: a read that goes on, and its bytes in the next sector of the target. -/
theorem Copied.step (readable : Readable home cs s) (copied : Copied home cs ts m s s')
    (more : m * size < s.file.details.dataLength)
    (flows : ¬ Stalls s' size) (buf : Block size) : ∃ bytes s₁ s'', File.read size s' = (.ok (some bytes), s₁) ∧
      onFs (FileSystem.onCache .data (SlotCache.write (start + m) (buf.patch 0 bytes))) s₁ = (.ok (), s'') ∧
      Copied home cs ts (m + 1) s s'' := by
  have layout := readable.layout
  have pos := layout.pos
  have details := copied.moved.details
  have cursor : s'.file.cursor = m * size := by rw [copied.cursor, Nat.min_eq_left more.le]
  have before : s'.file.cursor < s'.file.details.dataLength := by rw [cursor, details]; exact more
  obtain ⟨bytes, s₁, run, read⟩ := copied.readable.read before flows
  have number : bytes.length = min size (s.file.details.dataLength - m * size) := by
    rcases read_count run with ⟨none_, _⟩ | ⟨_, same, _, count⟩
    · cases none_
    · cases same
      rw [count, cursor, details]
  have inside := target.sector_lt layout more
  have setup : s₁.fs.setup = s.fs.setup := (congrArg Volume.setup read.volume).trans copied.rewritten.setup
  have sector : (s₁.fs.volume home).fileSector ts m = start + m := by
    rw [← target.inRow m inside, fileSector, fileSector, dataSector, dataSector, FileSystem.volume_setup,
      FileSystem.volume_setup, setup]
  have here : home (start + m) = .data := by
    rw [← target.inRow m inside]
    exact fileSector_home layout target.data inside
  obtain ⟨s'', written, sound, shown⟩ := leads_write read.readable.sound here (buf.patch 0 bytes)
  obtain ⟨volume, file⟩ := Prod.mk.inj shown
  have volume : s''.fs.volume home = (s₁.fs.volume home).store (start + m) (buf.patch 0 bytes) := volume
  have stored : Rewritten home (s₁.fs.volume home) (s''.fs.volume home) := by
    rw [volume]
    exact store_rewritten _ here _
  have same := eq_of_bare file
  have moved : s''.file.cursor = min ((m + 1) * size) s.file.details.dataLength := by
    rw [same]
    change s₁.file.cursor = _
    rw [read.cursor, cursor, number, Nat.succ_mul]
    omega
  refine ⟨bytes, s₁, s'', run, written, read.readable.rewritten sound stored file, ?_, moved, ?_, fun t outside => ?_,
    fun i below => ?_⟩
  · rw [same]
    exact copied.moved.trans ⟨read.moved.details, read.moved.chain, read.moved.options⟩
  · exact copied.rewritten.trans (read.volume ▸ stored)
  · rw [volume, store_sectors_ne _ (target.inRow m inside ▸ outside m inside), read.volume]
    exact copied.foreign t outside
  · have small := Nat.mod_lt i pos
    have split := Nat.div_add_mod i size
    rw [Nat.mul_comm] at split
    rw [moved] at below
    have inFile : i < s.file.details.dataLength := below.trans_le (Nat.min_le_right _ _)
    have inTarget : i < ts.length * s.fs.fs.clusterLength := inFile.trans_le target.room
    have details₁ : s₁.fs.fs = s.fs.fs := congrArg Setup.details setup
    have inHeap₁ : ∀ c ∈ ts, (s₁.fs.volume home).InHeap c := by
      rw [read.volume]
      exact fun c member => copied.rewritten.inHeap.mpr (target.inHeap c member)
    have byte := fileByte_store (setup ▸ layout) inHeap₁ target.distinct (details₁ ▸ inside) (details₁ ▸ inTarget)
      (buf.patch 0 bytes)
    rw [sector] at byte
    rw [volume, byte]
    by_cases last : i / size = m
    · -- a byte of the sector that was just written
      rw [last] at split
      have count : i % size < bytes.length := by omega
      have patched : (buf.patch 0 bytes).byte (0 + i % size) = bytes[i % size] :=
        Block.byte_patch_inside buf (by omega) count
      rw [Nat.zero_add] at patched
      rw [if_pos last, patched, read.content _ count, cursor, split, copied.content target readable inFile]
    · have early : i < m * size := by
        have less : i / size < m + 1 := (Nat.div_lt_iff_lt_mul pos).mpr (below.trans_le (Nat.min_le_left _ _))
        have reach := Nat.mul_le_mul_right size (show i / size + 1 ≤ m by omega)
        rw [Nat.succ_mul] at reach
        omega
      rw [if_neg last, read.volume]
      exact copied.bytes i (by omega)

end Loop

/-- From sector `m` on no read gets stuck, and every next sector has a number. -/
def CopiesFrom (size bits start : Nat) (details : FileDetails) (m : Nat) : Prop :=
  ∀ k, m ≤ k → k * size < details.dataLength →
    ¬ (2 ^ bits ≤ details.validDataLength - k * size ∧ (details.validDataLength - k * size) % 2 ^ bits < size) ∧
      start + k + 1 < 2 ^ 32

theorem CopiesFrom.succ {bits : Nat} {details : FileDetails} (copies : CopiesFrom size bits start details (m + 1))
    (here : ¬ (2 ^ bits ≤ details.validDataLength - m * size ∧
      (details.validDataLength - m * size) % 2 ^ bits < size))
    (small : start + m + 1 < 2 ^ 32) : CopiesFrom size bits start details m := by
  intro k from_ before
  rcases Nat.eq_or_lt_of_le from_ with rfl | later
  · exact ⟨here, small⟩
  · exact copies k later before

/-- From the first sector on: the valid data are few enough for `usize`, and the last sector is
not the last one that has a number. -/
theorem copiesFrom_zero {bits : Nat} {details : FileDetails} (pos : 0 < size) (some_ : 0 < details.dataLength)
    (valid : details.validDataLength ≤ details.dataLength) : CopiesFrom size bits start details 0 ↔
      details.validDataLength < 2 ^ bits ∧ start + FileSystem.divCeil details.dataLength size < 2 ^ 32 := by
  have width : 0 < 2 ^ bits := Nat.two_pow_pos _
  have sectors : ∀ k, k < FileSystem.divCeil details.dataLength size ↔ k * size < details.dataLength := fun k => by
    rw [← Nat.not_le, ← Nat.not_le, divCeil_le pos]
  constructor
  · intro copies
    constructor
    · -- the round at which the number of valid bytes wraps
      by_contra many
      have whole := Nat.div_add_mod (details.validDataLength - 2 ^ bits) size
      rw [Nat.mul_comm] at whole
      have small := Nat.mod_lt (details.validDataLength - 2 ^ bits) pos
      refine (copies ((details.validDataLength - 2 ^ bits) / size) (Nat.zero_le _) (by omega)).1 ⟨by omega, ?_⟩
      have left : details.validDataLength - (details.validDataLength - 2 ^ bits) / size * size =
          (details.validDataLength - 2 ^ bits) % size + 2 ^ bits := by omega
      rw [left, Nat.add_mod_right]
      exact (Nat.mod_le _ _).trans_lt small
    · have one : 0 < FileSystem.divCeil details.dataLength size := (sectors 0).mpr (by omega)
      have last := (copies (FileSystem.divCeil details.dataLength size - 1) (Nat.zero_le _)
        ((sectors _).mp (by omega))).2
      omega
  · rintro ⟨narrow, bound⟩ k _ before
    have inside := (sectors k).mpr before
    exact ⟨fun stuck => by omega, by omega⟩

/-- The loop copies the rest of the file, or does not return with success. -/
theorem copySectors_spec (target : Target home cs ts start s) (readable : Readable home cs s) (rounds : Nat) :
    ∀ {m : Nat} {s' : FileSession size n} (buf : Block size), Copied home cs ts m s s' →
    s.file.details.dataLength - s'.file.cursor < rounds →
    (CopiesFrom size s.fs.usizeBits start s.file.details m ∧ ∃ m' s'', File.copySectors rounds (start + m) buf s' =
      (.ok (), s'') ∧
      Copied home cs ts m' s s'' ∧ s''.file.cursor = s.file.details.dataLength) ∨
    (¬ CopiesFrom size s.fs.usizeBits start s.file.details m ∧ ∀ s'', File.copySectors rounds (start + m) buf s' ≠
      (.ok (), s'')) := by
  induction rounds with
  | zero => exact fun _ _ none_ => absurd none_ (Nat.not_lt_zero _)
  | succ rounds ih =>
    intro m s' buf copied enough
    have details := copied.moved.details
    have bits : s'.fs.usizeBits = s.fs.usizeBits := congrArg (fun u : Setup => u.usizeBits) copied.rewritten.setup
    have cursor := copied.cursor
    rw [File.copySectors]
    by_cases more : m * size < s.file.details.dataLength
    · have cursor : s'.file.cursor = m * size := by rw [cursor, Nat.min_eq_left more.le]
      have before : s'.file.cursor < s'.file.details.dataLength := by rw [cursor, details]; exact more
      have stalling : Stalls s' size ↔ 2 ^ s.fs.usizeBits ≤ s.file.details.validDataLength - m * size ∧
          (s.file.details.validDataLength - m * size) % 2 ^ s.fs.usizeBits < size := by
            rw [Stalls, details, bits, cursor]
      by_cases stalls : Stalls s' size
      · refine Or.inr ⟨fun copies => (copies m le_rfl more).1 (stalling.mp stalls), fun s'' same => ?_⟩
        have stuck := copied.readable.read_stalls before readable.layout.pos stalls
        obtain ⟨result, s₁, run, _⟩ := Exec.bind_eq_ok.mp same
        rw [run] at stuck
        cases stuck
      · obtain ⟨bytes, s₁, s₂, read, written, copied₂⟩ := copied.step target readable more stalls buf
        by_cases small : start + m + 1 < 2 ^ 32
        · have cursor₂ := copied₂.cursor
          have less : m * size < (m + 1) * size := by
            rw [Nat.succ_mul]
            exact Nat.lt_add_of_pos_right readable.layout.pos
          rw [Exec.bind_of_ok read]
          dsimp only
          rw [Exec.bind_of_ok written, Exec.bind_of_ok (u32_of_lt small s₂)]
          rcases ih (m := m + 1) (buf.patch 0 bytes) copied₂ (by omega) with ⟨copies, m', s'', run, done⟩ |
            ⟨not_, fails⟩
          · exact Or.inl ⟨copies.succ (stalling.not.mp stalls) small, m', s'', run, done⟩
          · exact Or.inr ⟨fun copies => not_ fun k later => copies k (by omega), fails⟩
        · refine Or.inr ⟨fun copies => small (copies m le_rfl more).2, fun s'' same => ?_⟩
          rw [Exec.bind_of_ok read] at same
          dsimp only at same
          rw [Exec.bind_of_ok written] at same
          obtain ⟨next, s₃, counted, _⟩ := Exec.bind_eq_ok.mp same
          exact small (u32_ok counted).1
    · have ended : s'.file.cursor = s.file.details.dataLength := by rw [cursor, Nat.min_eq_right (Nat.not_lt.mp more)]
      have none_ : File.read size s' = (.ok none, s') := copied.readable.read_at_end (by rw [ended, details]) size
      have never : CopiesFrom size s.fs.usizeBits start s.file.details m := by
        intro k from_ before
        have least := Nat.mul_le_mul_right size from_
        omega
      refine Or.inl ⟨never, m, s', ?_, copied, ended⟩
      rw [Exec.bind_of_ok none_]
      rfl

end FileSession

end ExFatSlim
