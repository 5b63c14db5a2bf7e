import ExFatSlim.Cursor

namespace ExFatSlim

namespace Volume

variable {size : Nat} {home : Nat → CacheKind} {v v' v'' : Volume size} {cs : List Nat} {start : Nat}
  {bytes more : List UInt8}

/-- A later volume in which `bytes` are at `start` in the file with clusters
`cs`, and every other byte of the file and every other sector is as it was. -/
structure Spliced (home : Nat → CacheKind) (cs : List Nat) (start : Nat) (bytes : List UInt8)
    (v v' : Volume size) : Prop where
  rewritten : Rewritten home v v'
  foreign : ∀ s, (∀ k < cs.length * v.setup.details.sectorsPerCluster, s ≠ v.fileSector cs k) →
    v'.sectors s = v.sectors s
  bytes : ∀ i < cs.length * v.setup.details.clusterLength, v'.fileByte cs i =
    if start ≤ i ∧ i < start + bytes.length then (bytes[i - start]?).getD 0 else v.fileByte cs i

theorem Spliced.refl (v : Volume size) (cs : List Nat) (start : Nat) : Spliced home cs start [] v v where
  rewritten := .refl v
  foreign _ _ := rfl
  bytes i _ := by rw [if_neg]; simp only [List.length_nil]; omega

/-- A splice right after another one. -/
theorem Spliced.trans (first : Spliced home cs start bytes v v')
    (second : Spliced home cs (start + bytes.length) more v' v'') :
    Spliced home cs start (bytes ++ more) v v'' where
  rewritten := first.rewritten.trans second.rewritten
  foreign s outside := by
    rw [second.foreign s, first.foreign s outside]
    intro k inside
    rw [first.rewritten.setup] at inside
    have sector : v'.fileSector cs k = v.fileSector cs k := by
      simp only [fileSector, dataSector, first.rewritten.setup]
    rw [sector]
    exact outside k inside
  bytes i inside := by
    rw [second.bytes i (by rwa [first.rewritten.setup]), List.length_append]
    by_cases late : start + bytes.length ≤ i ∧ i < start + bytes.length + more.length
    · rw [if_pos late, if_pos (by omega), List.getElem?_append_right (by omega)]
      congr 2
      omega
    · rw [if_neg late, first.bytes i inside]
      by_cases early : start ≤ i ∧ i < start + bytes.length
      · rw [if_pos early, if_pos (by omega), List.getElem?_append_left (by omega)]
      · rw [if_neg early, if_neg (by omega)]

theorem fileByte_store (layout : Layout size home v.setup) (inHeap : ∀ c ∈ cs, v.InHeap c) (distinct : cs.Nodup)
    {k i : Nat} (insideK : k < cs.length * v.setup.details.sectorsPerCluster)
    (insideI : i < cs.length * v.setup.details.clusterLength) (b : Block size) :
    (v.store (v.fileSector cs k) b).fileByte cs i =
      if i / size = k then b.byte (i % size) else v.fileByte cs i := by
  have sector : ∀ l, (v.store (v.fileSector cs k) b).fileSector cs l = v.fileSector cs l := fun _ => rfl
  have insideL : i / size < cs.length * v.setup.details.sectorsPerCluster := by
    rw [Nat.div_lt_iff_lt_mul layout.pos, Nat.mul_assoc, Nat.mul_comm _ size, ← layout.clusterLength]
    exact insideI
  rw [fileByte, sector]
  by_cases same : i / size = k
  · rw [if_pos same, same, store_sectors_self]
  · rw [if_neg same, store_sectors_ne, fileByte]
    exact fun equal => same (fileSector_inj layout inHeap distinct insideL insideK equal)

/-- Bytes copied into one sector of the file. -/
theorem spliced_store (layout : Layout size home v.setup) (inHeap : ∀ c ∈ cs, v.InHeap c) (distinct : cs.Nodup)
    (data : ∀ c ∈ cs, v.IsData home c) {k offset : Nat}
    (inside : k < cs.length * v.setup.details.sectorsPerCluster) (fits : offset + bytes.length ≤ size) :
    Spliced home cs (k * size + offset) bytes v
      (v.store (v.fileSector cs k) ((v.sectors (v.fileSector cs k)).patch offset bytes)) where
  rewritten := store_rewritten v (fileSector_home layout data inside) _
  foreign s outside := store_sectors_ne v (outside k inside) _
  bytes i insideI := by
    rw [fileByte_store layout inHeap distinct inside insideI, Block.byte_patch]
    have split := Nat.div_add_mod i size
    rw [Nat.mul_comm] at split
    have small := Nat.mod_lt i layout.pos
    by_cases same : i / size = k
    · rw [if_pos same]
      rw [same] at split
      by_cases within : offset ≤ i % size ∧ i % size < offset + bytes.length
      · rw [if_pos ⟨small, within⟩, if_pos (by omega)]
        congr 2
        omega
      · rw [if_neg (by omega), if_neg (by omega), fileByte, same]
    · rw [if_neg same, if_neg]
      rintro ⟨low, high⟩
      rcases Nat.lt_or_gt_of_ne same with before | after
      · have reach := Nat.mul_le_mul_right size (Nat.succ_le_of_lt before)
        rw [Nat.succ_mul] at reach
        omega
      · have reach := Nat.mul_le_mul_right size (Nat.succ_le_of_lt after)
        rw [Nat.succ_mul] at reach
        omega

end Volume

namespace File

variable {size n : Nat} {home : Nat → CacheKind} {cs : List Nat} {file file' file'' : File} {clusterLength : Nat}

/-- The cursor is inside the current cluster, which is its cluster of the chain. -/
def Inside (clusterLength : Nat) (cs : List Nat) (file : File) : Prop :=
  cs[file.cursor / clusterLength]? = some file.currentCluster ∧
    file.remainingBytesInCluster = clusterLength - file.cursor % clusterLength

/-- The cursor is right after the current cluster, none of which remains. -/
def Past (clusterLength : Nat) (cs : List Nat) (file : File) : Prop :=
  0 < file.cursor ∧ file.cursor % clusterLength = 0 ∧ file.remainingBytesInCluster = 0 ∧
    cs[file.cursor / clusterLength - 1]? = some file.currentCluster

/-- The position of a handle denotes its cursor. -/
def Denotes (clusterLength : Nat) (cs : List Nat) (file : File) : Prop :=
  Inside clusterLength cs file ∨ Past clusterLength cs file

/-- The position after something was put: inside a cluster only when the cluster is not used up. -/
def Settled (clusterLength : Nat) (cs : List Nat) (file : File) : Prop :=
  (file.cursor % clusterLength ≠ 0 ∧ Inside clusterLength cs file) ∨ Past clusterLength cs file

theorem Settled.denotes (settled : Settled clusterLength cs file) : Denotes clusterLength cs file :=
  settled.imp And.right id

theorem Settled.inside (settled : Settled clusterLength cs file) (partly : file.cursor % clusterLength ≠ 0) :
    Inside clusterLength cs file := by
  rcases settled with ⟨_, inside⟩ | past
  · exact inside
  · exact absurd past.2.1 partly

theorem Settled.past (settled : Settled clusterLength cs file) (whole : file.cursor % clusterLength = 0) :
    Past clusterLength cs file :=
  settled.resolve_left fun inside => inside.1 whole

/-- A handle of which only the position has changed. -/
structure Moved (file file' : File) : Prop where
  details : file'.details = file.details
  chain : file'.chain = file.chain
  options : file'.openOptions = file.openOptions

theorem Moved.refl (file : File) : Moved file file := ⟨rfl, rfl, rfl⟩

theorem Moved.trans (first : Moved file file') (second : Moved file' file'') : Moved file file'' :=
  ⟨second.details.trans first.details, second.chain.trans first.chain, second.options.trans first.options⟩

/-- A handle is what it is without its touched set. -/
theorem eq_of_bare (same : file'.bare = file) : file' = { file with touched := file'.touched } := by
  subst same
  rfl

/-- Moving the cursor within the current cluster, at most to its end. -/
theorem Inside.move (pos : 0 < clusterLength) (inside : Inside clusterLength cs file) {k : Nat} (some_ : 0 < k)
    (enough : k ≤ file.remainingBytesInCluster) :
    Settled clusterLength cs { file with
      cursor := file.cursor + k, remainingBytesInCluster := file.remainingBytesInCluster - k } := by
  obtain ⟨cluster, remaining⟩ := inside
  have small := Nat.mod_lt file.cursor pos
  have split := Nat.div_add_mod file.cursor clusterLength
  by_cases whole : k = file.remainingBytesInCluster
  · -- the cluster is used up
    have reached : file.cursor + k = clusterLength * (file.cursor / clusterLength + 1) := by
      rw [Nat.mul_succ]
      omega
    refine Or.inr ⟨?_, ?_, ?_, ?_⟩
    · dsimp only
      omega
    · rw [reached]
      exact Nat.mul_mod_right _ _
    · simp [whole]
    · rw [reached, Nat.mul_div_cancel_left _ pos]
      exact cluster
  · have place : file.cursor + k =
        clusterLength * (file.cursor / clusterLength) + (file.cursor % clusterLength + k) := by omega
    have short : file.cursor % clusterLength + k < clusterLength := by omega
    refine Or.inl ⟨?_, ?_, ?_⟩
    · dsimp only
      rw [place, Nat.mul_add_mod, Nat.mod_eq_of_lt short]
      omega
    · dsimp only
      rw [place, Nat.mul_add_div pos, Nat.div_eq_of_lt short, Nat.add_zero]
      exact cluster
    · dsimp only
      rw [place, Nat.mul_add_mod, Nat.mod_eq_of_lt short]
      omega

end File

/-- The rest of a sector is in the cluster of the sector. -/
theorem sector_room {size sectorsPerCluster : Nat} (pos : 0 < size) (some_ : 0 < sectorsPerCluster) (cursor : Nat) :
    cursor % (size * sectorsPerCluster) + (size - cursor % size) ≤ size * sectorsPerCluster := by
  have cluster : 0 < size * sectorsPerCluster := Nat.mul_pos pos some_
  have inner : cursor % (size * sectorsPerCluster) % size = cursor % size :=
    Nat.mod_mod_of_dvd _ (Nat.dvd_mul_right _ _)
  have split := Nat.div_add_mod (cursor % (size * sectorsPerCluster)) size
  have index : cursor % (size * sectorsPerCluster) / size < sectorsPerCluster := by
    rw [Nat.div_lt_iff_lt_mul pos, Nat.mul_comm sectorsPerCluster]
    exact Nat.mod_lt _ cluster
  have block := Nat.mul_le_mul_left size (Nat.succ_le_of_lt index)
  have small := Nat.mod_lt cursor pos
  rw [Nat.mul_succ] at block
  omega

namespace FileSession

variable {size n : Nat} {home : Nat → CacheKind} {s s' s'' : FileSession size n} {cs : List Nat}
  {bytes more : List UInt8}

/-- A later state in which `bytes` were put at the cursor, which is after them now. -/
structure Put (home : Nat → CacheKind) (cs : List Nat) (bytes : List UInt8) (s s' : FileSession size n) : Prop where
  holds : Holds home cs s'
  spliced : Volume.Spliced home cs s.file.cursor bytes (s.fs.volume home) (s'.fs.volume home)
  moved : File.Moved s.file s'.file
  cursor : s'.file.cursor = s.file.cursor + bytes.length

theorem Put.trans (first : Put home cs bytes s s') (second : Put home cs more s' s'') :
    Put home cs (bytes ++ more) s s'' where
  holds := second.holds
  spliced := first.spliced.trans (first.cursor ▸ second.spliced)
  moved := first.moved.trans second.moved
  cursor := by rw [second.cursor, first.cursor, List.length_append, Nat.add_assoc]

theorem Put.setup (put : Put home cs bytes s s') : s'.fs.setup = s.fs.setup := put.spliced.rewritten.setup

theorem Put.clusterLength (put : Put home cs bytes s s') : s'.fs.fs.clusterLength = s.fs.fs.clusterLength :=
  congrArg (fun u : Setup => u.details.clusterLength) put.setup

/-- The whole chain is inside 64 bits. -/
theorem Holds.capacity (holds : Holds home cs s) : cs.length * s.fs.fs.clusterLength < 2 ^ 64 := by
  have few := File.length_le_heap holds.owns.distinct holds.owns.inHeap
  have ids := holds.layout.ids
  have bound := holds.clusterLength.2.2
  simp only [Fat.clusterLen, FileSystem.volume_setup] at ids few
  calc cs.length * s.fs.fs.clusterLength ≤ (2 ^ 32 - 1) * (2 ^ 32 - 1) := Nat.mul_le_mul (by omega) (by omega)
    _ < 2 ^ 64 := by decide

/-- A step that moves nothing but the current cluster. -/
theorem Holds.put_nil (holds : Holds home cs s) (sound : s'.fs.Sound home)
    (volume : s'.fs.volume home = s.fs.volume home) (moved : File.Moved s.file s'.file)
    (cursor : s'.file.cursor = s.file.cursor) : Put home cs [] s s' where
  holds := by
    refine holds.rewritten sound ?_ moved.chain (by rw [moved.details])
    rw [volume]
    exact .refl _
  spliced := by
    rw [volume]
    exact .refl _ _ _
  moved := moved
  cursor := cursor

/-- `next_cluster_if_required` before something is done at the cursor. -/
theorem Holds.turn (holds : Holds home cs s) (denotes : File.Denotes s.fs.fs.clusterLength cs s.file)
    (before : s.file.cursor < cs.length * s.fs.fs.clusterLength) :
    ∃ s', File.nextClusterIfRequired s = (.ok (), s') ∧ s'.fs.Sound home ∧ s'.fs.volume home = s.fs.volume home ∧
      File.Moved s.file s'.file ∧ s'.file.cursor = s.file.cursor ∧ File.Inside s.fs.fs.clusterLength cs s'.file := by
  obtain ⟨_, pos, _⟩ := holds.clusterLength
  have index : s.file.cursor / s.fs.fs.clusterLength < cs.length := (Nat.div_lt_iff_lt_mul pos).mpr before
  rcases denotes with inside | ⟨started, aligned, used, cluster⟩
  · have small := Nat.mod_lt s.file.cursor pos
    obtain ⟨s', run, sound, shown⟩ := File.nextClusterIfRequired_stay holds.sound (by rw [inside.2]; omega)
    have file := File.eq_of_bare (Prod.mk.inj shown).2
    refine ⟨s', run, sound, (Prod.mk.inj shown).1, ?_, ?_, ?_⟩
    · rw [file]
      exact ⟨rfl, rfl, rfl⟩
    · rw [file]
      rfl
    · rw [file]
      exact inside
  · -- the cursor is at the start of the next cluster
    have later : s.file.cursor / s.fs.fs.clusterLength - 1 + 1 = s.file.cursor / s.fs.fs.clusterLength :=
      Nat.sub_add_cancel (Nat.div_pos (Nat.le_of_dvd started (Nat.dvd_of_mod_eq_zero aligned)) pos)
    obtain ⟨s', run, sound, shown⟩ := File.nextClusterIfRequired_move holds cluster used
      (by rw [later]; exact List.getElem?_eq_getElem index)
    have file := File.eq_of_bare (Prod.mk.inj shown).2
    refine ⟨s', run, sound, (Prod.mk.inj shown).1, ?_, ?_, ?_⟩
    · rw [file]
      exact ⟨rfl, rfl, rfl⟩
    · rw [file]
      rfl
    · rw [file]
      refine ⟨List.getElem?_eq_getElem index, ?_⟩
      change s.fs.fs.clusterLength = s.fs.fs.clusterLength - s.file.cursor % s.fs.fs.clusterLength
      omega

/-- `next_cluster_if_required` before something is put at the cursor. -/
theorem Holds.advance (holds : Holds home cs s) (denotes : File.Denotes s.fs.fs.clusterLength cs s.file)
    (before : s.file.cursor < cs.length * s.fs.fs.clusterLength) :
    ∃ s', File.nextClusterIfRequired s = (.ok (), s') ∧ Put home cs [] s s' ∧
      File.Inside s.fs.fs.clusterLength cs s'.file := by
  obtain ⟨s', run, sound, volume, moved, cursor, inside⟩ := holds.turn denotes before
  exact ⟨s', run, holds.put_nil sound volume moved cursor, inside⟩

/-- The sector of a cursor inside its cluster is that sector of the file. -/
theorem Holds.sector (holds : Holds home cs s) (inside : File.Inside s.fs.fs.clusterLength cs s.file) :
    s.file.currentCluster ∈ cs ∧
    s.file.cursor / size < cs.length * s.fs.fs.sectorsPerCluster ∧
    (s.fs.volume home).dataSector s.file.currentCluster (s.file.cursor % s.fs.fs.clusterLength / size) =
      (s.fs.volume home).fileSector cs (s.file.cursor / size) := by
  obtain ⟨length, pos, _⟩ := holds.clusterLength
  obtain ⟨cluster, _⟩ := inside
  obtain ⟨index, _⟩ := List.getElem?_eq_some_iff.mp cluster
  have quotient : s.file.cursor / size / s.fs.fs.sectorsPerCluster = s.file.cursor / s.fs.fs.clusterLength := by
    rw [Nat.div_div_eq_div_mul, length]
  refine ⟨List.mem_of_getElem? cluster, ?_, ?_⟩
  · have some_ : 0 < s.fs.fs.sectorsPerCluster := holds.layout.sectorsPerCluster
    rw [← Nat.div_lt_iff_lt_mul some_, quotient]
    exact index
  · have current : cs.getD (s.file.cursor / size / s.fs.fs.sectorsPerCluster) 0 = s.file.currentCluster := by
      rw [quotient, List.getD_eq_getElem?_getD, cluster, Option.getD_some]
    have offset : s.file.cursor % s.fs.fs.clusterLength / size =
        s.file.cursor / size % s.fs.fs.sectorsPerCluster := by
      rw [length, Nat.mod_mul_right_div_self]
    rw [offset, ← current]
    rfl

/-- Bytes in the sector of the cursor, and the cursor after them. -/
theorem Holds.put (holds : Holds home cs s) (inside : File.Inside s.fs.fs.clusterLength cs s.file)
    (some_ : 0 < bytes.length) (fits : s.file.cursor % size + bytes.length ≤ size) {s₁ : FileSession size n}
    (sound : s₁.fs.Sound home)
    (volume : s₁.fs.volume home = (s.fs.volume home).store ((s.fs.volume home).fileSector cs (s.file.cursor / size))
      (((s.fs.volume home).sectors ((s.fs.volume home).fileSector cs (s.file.cursor / size))).patch
        (s.file.cursor % size) bytes))
    (file : s₁.file.bare = s.file.bare) :
    ∃ s', File.moveFileCursor bytes.length s₁ = (.ok (), s') ∧ Put home cs bytes s s' ∧
      File.Settled s.fs.fs.clusterLength cs s'.file := by
  obtain ⟨length, pos, bound⟩ := holds.clusterLength
  obtain ⟨_, sector, _⟩ := holds.sector inside
  have file₁ := File.eq_of_bare file
  have room := sector_room holds.layout.pos holds.layout.sectorsPerCluster s.file.cursor
  change s.file.cursor % (size * s.fs.fs.sectorsPerCluster) + (size - s.file.cursor % size) ≤
    size * s.fs.fs.sectorsPerCluster at room
  rw [← length] at room
  have enough : bytes.length ≤ s.file.remainingBytesInCluster := by
    rw [inside.2]
    omega
  have reach : s.file.cursor + bytes.length ≤ cs.length * s.fs.fs.clusterLength := by
    have split := Nat.div_add_mod s.file.cursor size
    have block := Nat.mul_le_mul_left size (Nat.succ_le_of_lt sector)
    rw [Nat.mul_succ, Nat.mul_left_comm, ← length] at block
    omega
  have spliced := Volume.spliced_store holds.layout holds.owns.inHeap holds.owns.distinct holds.owns.data sector fits
  rw [Nat.div_add_mod' s.file.cursor size, ← volume] at spliced
  have capacity := holds.capacity
  refine ⟨_, File.moveFileCursor_run (by rw [file₁]; exact lt_of_le_of_lt reach capacity) (by omega)
    (by rw [file₁]; exact enough), ⟨?_, spliced, ?_, ?_⟩, ?_⟩
  · exact holds.rewritten sound spliced.rewritten (by rw [file₁]; rfl) (by rw [file₁]; rfl)
  · rw [file₁]
    exact ⟨rfl, rfl, rfl⟩
  · rw [file₁]
    rfl
  · rw [file₁]
    exact inside.move pos some_ enough

end FileSession

namespace File

open FileSession

variable {size n : Nat} {home : Nat → CacheKind} {s : FileSession size n} {cs : List Nat}

/-- How many of `length` bytes `write_partial_sector` puts into the sector of the cursor. -/
def partialLength (size cursor length : Nat) : Nat :=
  if 0 < cursor % size ∨ length < size then min length (size - cursor % size) else 0

/-- An aligned full sector is left to the loop over the blocks. -/
theorem writePartialSector_skips (holds : Holds home cs s) (member : s.file.currentCluster ∈ cs)
    {buf : List UInt8} (aligned : s.file.cursor % size = 0) (full : size ≤ buf.length) :
    writePartialSector buf s = (.ok 0, s) := by
  have pos := holds.layout.pos
  have nonempty : buf.isEmpty = false := by
    rw [List.isEmpty_eq_false_iff, ← List.length_pos_iff]
    omega
  rw [writePartialSector, nonempty, if_neg Bool.false_ne_true, Exec.bind_of_ok (Exec.get_apply s)]
  rw [Exec.bind_of_ok (getCurrentSectorId_run holds member), if_neg (by omega)]
  rfl

/-- The bytes that go into the sector of the cursor, before the cursor moves. -/
theorem writePartialSector_stores (holds : Holds home cs s) (member : s.file.currentCluster ∈ cs)
    {buf : List UInt8} (nonempty : buf ≠ []) (partly : 0 < s.file.cursor % size ∨ buf.length < size) :
    ∃ s₁, writePartialSector buf s =
        (moveFileCursor (min buf.length (size - s.file.cursor % size)) >>= fun _ =>
          pure (min buf.length (size - s.file.cursor % size)) : ExFat _ Nat) s₁ ∧ s₁.fs.Sound home ∧
      s₁.fs.volume home = (s.fs.volume home).store
        ((s.fs.volume home).dataSector s.file.currentCluster (s.file.cursor % s.fs.fs.clusterLength / size))
        (((s.fs.volume home).sectors
          ((s.fs.volume home).dataSector s.file.currentCluster (s.file.cursor % s.fs.fs.clusterLength / size))).patch
            (s.file.cursor % size) (buf.take (min buf.length (size - s.file.cursor % size)))) ∧
      s₁.file.bare = s.file.bare := by
  have small := Nat.mod_lt s.file.cursor holds.layout.pos
  have length : min size (s.file.cursor % size + buf.length) - s.file.cursor % size =
      min buf.length (size - s.file.cursor % size) := by omega
  have here : home ((s.fs.volume home).dataSector s.file.currentCluster
      (s.file.cursor % s.fs.fs.clusterLength / size)) = .data :=
     holds.owns.data _ member _ (holds.offset _)
  obtain ⟨s₁, run₁, sound₁, shown₁⟩ := leads_readMut holds.sound here fun b =>
    b.patch (s.file.cursor % size) (buf.take (min buf.length (size - s.file.cursor % size)))
  obtain ⟨volume₁, file₁⟩ := Prod.mk.inj shown₁
  obtain ⟨s₂, run₂, sound₂, shown₂⟩ := leads_onSession (s := s₁) (Session.leads_insert (s := ⟨s₁.fs, s₁.file.touched⟩)
    sound₁ ⟨.data, (s.fs.volume home).dataSector s.file.currentCluster
      (s.file.cursor % s.fs.fs.clusterLength / size)⟩)
  obtain ⟨volume₂, file₂⟩ := Prod.mk.inj shown₂
  refine ⟨s₂, ?_, sound₂, volume₂.trans volume₁, file₂.trans file₁⟩
  rw [writePartialSector, if_neg (by simpa using nonempty), Exec.bind_of_ok (Exec.get_apply s)]
  rw [Exec.bind_of_ok (getCurrentSectorId_run holds member), if_pos (by omega)]
  rw [length, Exec.bind_of_ok run₁, Exec.bind_of_ok run₂]

theorem writePartialSector_put (holds : Holds home cs s) (inside : Inside s.fs.fs.clusterLength cs s.file)
    {buf : List UInt8} (nonempty : buf ≠ []) :
    ∃ s', writePartialSector buf s = (.ok (partialLength size s.file.cursor buf.length), s') ∧
      Put home cs (buf.take (partialLength size s.file.cursor buf.length)) s s' ∧
      (Settled s.fs.fs.clusterLength cs s'.file ∨
        partialLength size s.file.cursor buf.length = 0 ∧ Inside s.fs.fs.clusterLength cs s'.file) := by
  obtain ⟨member, index, sector⟩ := holds.sector inside
  have small := Nat.mod_lt s.file.cursor holds.layout.pos
  by_cases partly : 0 < s.file.cursor % size ∨ buf.length < size
  · obtain ⟨s₁, run₁, sound₁, volume₁, file₁⟩ := writePartialSector_stores holds member nonempty partly
    rw [sector] at volume₁
    have length : (buf.take (min buf.length (size - s.file.cursor % size))).length =
        min buf.length (size - s.file.cursor % size) := by
      rw [List.length_take]
      omega
    have some_ : 0 < buf.length := List.length_pos_iff.mpr nonempty
    obtain ⟨s', run', put, settled⟩ := holds.put inside (by rw [length]; omega) (by rw [length]; omega) sound₁
      volume₁ file₁
    rw [length] at run'
    rw [partialLength, if_pos partly]
    exact ⟨s', run₁.trans (Exec.bind_of_ok run'), put, Or.inl settled⟩
  · rw [partialLength, if_neg partly, List.take_zero]
    rw [not_or] at partly
    exact ⟨s, writePartialSector_skips holds member (by omega) (by omega),
      holds.put_nil holds.sound rfl (.refl _) rfl, Or.inr ⟨rfl, inside⟩⟩

theorem blocksOf_short {buf : List UInt8} (short : buf.length < size) : blocksOf size buf = [] := by
  rw [blocksOf, Nat.div_eq_of_lt short]
  rfl

theorem length_drop_div (pos : 0 < size) {buf : List UInt8} (full : size ≤ buf.length) :
    buf.length / size = (buf.drop size).length / size + 1 := by
  rw [List.length_drop, ← Nat.add_div_right _ pos, Nat.sub_add_cancel full]

/-- The first block, and the blocks of the rest. -/
theorem blocksOf_long (pos : 0 < size) {buf : List UInt8} (full : size ≤ buf.length) (b : Block size) :
    blocksOf size buf = b.patch 0 (buf.take size) :: blocksOf size (buf.drop size) := by
  rw [blocksOf, blocksOf, length_drop_div pos full, List.range_succ_eq_map, List.map_cons, List.map_map]
  congr 1
  · funext i
    have inside : i.val < (buf.take size).length := by rw [List.length_take]; omega
    rw [Block.patch, if_pos (Nat.zero_le _), Nat.sub_zero, Nat.zero_mul, Nat.zero_add,
      List.getElem?_eq_getElem inside, List.getElem_take, List.getElem?_eq_getElem (by omega)]
    rfl
  · refine List.map_congr_left fun k _ => ?_
    funext i
    rw [Function.comp_apply, List.getElem?_drop, Nat.succ_mul]
    congr 2
    omega

/-- One round of the loop over the blocks. -/
theorem writeBlock_put (holds : Holds home cs s) (denotes : Denotes s.fs.fs.clusterLength cs s.file)
    (aligned : s.file.cursor % size = 0) {buf : List UInt8} (full : size ≤ buf.length)
    (room : s.file.cursor + size ≤ cs.length * s.fs.fs.clusterLength) :
    ∃ s', writeBlocks (blocksOf size buf) s = writeBlocks (blocksOf size (buf.drop size)) s' ∧
      Put home cs (buf.take size) s s' ∧ Settled s.fs.fs.clusterLength cs s'.file := by
  have pos := holds.layout.pos
  obtain ⟨s₁, run₁, put₁, inside₁⟩ := holds.advance denotes (by omega)
  have length₁ := put₁.clusterLength
  have cursor₁ : s₁.file.cursor = s.file.cursor := put₁.cursor
  rw [← length₁] at inside₁
  obtain ⟨member₁, index₁, sector₁⟩ := put₁.holds.sector inside₁
  have here : home ((s₁.fs.volume home).fileSector cs (s₁.file.cursor / size)) = .data :=
    Volume.fileSector_home put₁.holds.layout put₁.holds.owns.data index₁
  have current := getCurrentSectorId_run put₁.holds member₁
  rw [sector₁] at current
  have size_eq : (buf.take size).length = size := by
    rw [List.length_take]
    omega
  have start : s₁.file.cursor % size = 0 := by rw [cursor₁, aligned]
  obtain ⟨s₂, run₂, sound₂, shown₂⟩ := leads_write put₁.holds.sound here
    (((s₁.fs.volume home).sectors ((s₁.fs.volume home).fileSector cs (s₁.file.cursor / size))).patch
      (s₁.file.cursor % size) (buf.take size))
  obtain ⟨volume₂, file₂⟩ := Prod.mk.inj shown₂
  obtain ⟨s', run', put', settled⟩ := put₁.holds.put inside₁ (by omega) (by omega) sound₂ volume₂ file₂
  rw [size_eq] at run'
  rw [start] at run₂
  refine ⟨s', ?_, put₁.trans put', length₁ ▸ settled⟩
  rw [blocksOf_long pos full ((s₁.fs.volume home).sectors
    ((s₁.fs.volume home).fileSector cs (s₁.file.cursor / size))), writeBlocks, Exec.bind_of_ok run₁,
    Exec.bind_of_ok current, Exec.bind_of_ok run₂, Exec.bind_of_ok run']

/-- The loop over the blocks, by induction on how many there are. -/
theorem writeBlocks_put (count : Nat) {buf : List UInt8} (blocks : buf.length / size = count) :
    ∀ {s : FileSession size n}, Holds home cs s → Denotes s.fs.fs.clusterLength cs s.file →
      s.file.cursor % size = 0 → s.file.cursor + count * size ≤ cs.length * s.fs.fs.clusterLength →
      ∃ s', writeBlocks (blocksOf size buf) s = (.ok (), s') ∧ Put home cs (buf.take (count * size)) s s' ∧
        (Settled s.fs.fs.clusterLength cs s'.file ∨ count = 0 ∧ s' = s) := by
  induction count generalizing buf with
  | zero =>
    intro s holds denotes aligned room
    have short : buf.length < size := by
      rcases Nat.div_eq_zero_iff.mp blocks with zero | short
      · exact absurd zero (Nat.pos_iff_ne_zero.mp holds.layout.pos)
      · exact short
    rw [blocksOf_short short, Nat.zero_mul, List.take_zero]
    exact ⟨s, rfl, holds.put_nil holds.sound rfl (.refl _) rfl, Or.inr ⟨rfl, rfl⟩⟩
  | succ count ih =>
    intro s holds denotes aligned room
    have pos := holds.layout.pos
    have full : size ≤ buf.length := by
      by_contra short
      rw [Nat.div_eq_of_lt (by omega)] at blocks
      omega
    rw [Nat.succ_mul] at room
    obtain ⟨s₁, run₁, put₁, settled₁⟩ := writeBlock_put holds denotes aligned full (by omega)
    have length₁ := put₁.clusterLength
    have size_eq : (buf.take size).length = size := by
      rw [List.length_take]
      omega
    have cursor₁ : s₁.file.cursor = s.file.cursor + size := by rw [put₁.cursor, size_eq]
    have fewer : (buf.drop size).length / size = count := by
      rw [length_drop_div pos full] at blocks
      omega
    rw [← length₁] at settled₁ room
    obtain ⟨s', run', put', settled'⟩ :=
      ih fewer put₁.holds settled₁.denotes (by rw [cursor₁, Nat.add_mod_right, aligned])
      (by omega)
    have whole : buf.take ((count + 1) * size) = buf.take size ++ (buf.drop size).take (count * size) := by
      rw [Nat.succ_mul, Nat.add_comm, List.take_add]
    rw [whole, run₁]
    refine ⟨s', run', put₁.trans put', Or.inl ?_⟩
    rw [← length₁]
    rcases settled' with settled' | ⟨_, rfl⟩
    · exact settled'
    · exact settled₁

/-- The write ends in the first sector of a cluster that it enters after it has
put something, so that nothing remains of the cluster before. -/
def Trips (size clusterLength cursor length : Nat) : Prop :=
  0 < (cursor + length) % clusterLength ∧ (cursor + length) % clusterLength < size ∧
    cursor < (cursor + length) / clusterLength * clusterLength

instance (size clusterLength cursor length : Nat) : Decidable (Trips size clusterLength cursor length) :=
  inferInstanceAs (Decidable (_ ∧ _ ∧ _))

theorem not_trips_within {sectorsPerCluster cursor length : Nat} (fits : cursor % size + length ≤ size) :
    ¬ Trips size (size * sectorsPerCluster) cursor length := by
  rintro ⟨some_, _, before⟩
  -- a cluster starts on a sector, and none starts after the cursor in its sector
  have split := Nat.div_add_mod cursor size
  have whole := Nat.div_add_mod (cursor + length) (size * sectorsPerCluster)
  rw [Nat.mul_comm] at before
  generalize (cursor + length) / (size * sectorsPerCluster) = q at before whole
  rw [Nat.mul_assoc] at before whole
  have later : cursor / size < sectorsPerCluster * q := by
    by_contra early
    have reach := Nat.mul_le_mul_left size (Nat.le_of_not_lt early)
    omega
  have reach := Nat.mul_le_mul_left size (Nat.succ_le_of_lt later)
  rw [Nat.mul_succ] at reach
  omega

/-- Which writes trip, by what is left for the last sector. -/
theorem trips_add_iff {sectorsPerCluster cursor k rest : Nat} (pos : 0 < size) (clusters : 0 < sectorsPerCluster)
    (aligned : (cursor + k) % size = 0) (some_ : 0 < k) (short : rest < size) :
    Trips size (size * sectorsPerCluster) cursor (k + rest) ↔
      (cursor + k) % (size * sectorsPerCluster) = 0 ∧ 0 < rest := by
  have room := sector_room pos clusters (cursor + k)
  have inner : (cursor + k) % (size * sectorsPerCluster) % size = 0 := by
    rw [Nat.mod_mod_of_dvd _ (Nat.dvd_mul_right _ _), aligned]
  have split := Nat.div_add_mod (cursor + k) (size * sectorsPerCluster)
  have wide : 0 < size * sectorsPerCluster := Nat.mul_pos pos clusters
  have place : cursor + (k + rest) = size * sectorsPerCluster * ((cursor + k) / (size * sectorsPerCluster)) +
      ((cursor + k) % (size * sectorsPerCluster) + rest) := by omega
  have small : (cursor + k) % (size * sectorsPerCluster) + rest < size * sectorsPerCluster := by omega
  rw [Trips, place, Nat.mul_add_mod, Nat.mod_eq_of_lt small, Nat.mul_add_div wide, Nat.div_eq_of_lt small,
    Nat.add_zero, Nat.mul_comm ((cursor + k) / _)]
  constructor
  · rintro ⟨positive, inSector, _⟩
    have zero : (cursor + k) % (size * sectorsPerCluster) = 0 := by
      by_contra nonzero
      have reach := Nat.le_of_dvd (Nat.pos_of_ne_zero nonzero) (Nat.dvd_of_mod_eq_zero inner)
      omega
    omega
  · rintro ⟨zero, positive⟩
    omega

theorem trips_iff (holds : Holds home cs s) {k length : Nat} (aligned : (s.file.cursor + k) % size = 0)
    (some_ : 0 < k) (inside : k ≤ length) (short : length - k < size) :
    Trips size s.fs.fs.clusterLength s.file.cursor length ↔
      (s.file.cursor + k) % s.fs.fs.clusterLength = 0 ∧ k < length := by
  have trips := trips_add_iff holds.layout.pos holds.layout.sectorsPerCluster aligned some_ short
  rw [Nat.add_sub_cancel' inside, Nat.sub_pos_iff_lt] at trips
  rw [holds.clusterLength.1]
  exact trips

/-- The first sector takes everything, or what it takes ends at the end of a sector. -/
theorem partialLength_cases (pos : 0 < size) (cursor length : Nat) :
    (length ≤ partialLength size cursor length → cursor % size + length ≤ size) ∧
    (partialLength size cursor length < length → (cursor + partialLength size cursor length) % size = 0 ∧
      (partialLength size cursor length = 0 → size ≤ length)) := by
  have small := Nat.mod_lt cursor pos
  have split := Nat.div_add_mod cursor size
  rw [partialLength]
  split
  · refine ⟨by omega, fun more => ⟨?_, by omega⟩⟩
    have reached : cursor + min length (size - cursor % size) = size * (cursor / size + 1) := by
      rw [Nat.mul_succ]
      omega
    rw [reached, Nat.mul_mod_right]
  · exact ⟨by omega, fun _ => ⟨by rw [Nat.add_zero]; omega, by omega⟩⟩

/-- Everything but the last sector: the write is done, or a short rest is left
at the start of a sector, after something was put. -/
theorem writeBytes_front (holds : Holds home cs s) (denotes : Denotes s.fs.fs.clusterLength cs s.file)
    {buf : List UInt8} (nonempty : buf ≠ [])
    (room : s.file.cursor + buf.length ≤ cs.length * s.fs.fs.clusterLength) :
    (∃ s', writeBytes buf s = (.ok (), s') ∧ Put home cs buf s s' ∧ Settled s.fs.fs.clusterLength cs s'.file ∧
      s.file.cursor % size + buf.length ≤ size) ∨
    ∃ k s', writeBytes buf s = (writePartialSector (buf.drop k) >>= fun _ => pure () : ExFat _ Unit) s' ∧
      Put home cs (buf.take k) s s' ∧ Settled s.fs.fs.clusterLength cs s'.file ∧ 0 < k ∧ k ≤ buf.length ∧
      (s.file.cursor + k) % size = 0 ∧ buf.length - k < size := by
  have pos := holds.layout.pos
  have small := Nat.mod_lt s.file.cursor pos
  have some_ : 0 < buf.length := List.length_pos_iff.mpr nonempty
  obtain ⟨s₁, run₁, put₁, inside₁⟩ := holds.advance denotes (by omega)
  have length₁ := put₁.clusterLength
  have cursor₁ : s₁.file.cursor = s.file.cursor := put₁.cursor
  rw [← length₁] at inside₁
  obtain ⟨s₂, run₂, put₂, settled₂⟩ := writePartialSector_put put₁.holds inside₁ nonempty
  have length₂ := put₂.clusterLength.trans length₁
  rw [cursor₁] at run₂ put₂ settled₂
  rw [length₁] at settled₂
  rw [writeBytes, Exec.bind_of_ok run₁, Exec.bind_of_ok run₂]
  obtain ⟨whole, partly⟩ := partialLength_cases pos s.file.cursor buf.length
  generalize partialLength size s.file.cursor buf.length = p at *
  by_cases more : p < buf.length
  · rw [if_pos more]
    obtain ⟨aligned, progress⟩ := partly more
    have taken : (buf.take p).length = p := by
      rw [List.length_take]
      omega
    have cursor₂ : s₂.file.cursor = s.file.cursor + p := by rw [put₂.cursor, cursor₁, taken]
    have denotes₂ : Denotes s.fs.fs.clusterLength cs s₂.file := by
      rcases settled₂ with settled | ⟨_, inside⟩
      · exact settled.denotes
      · exact Or.inl inside
    have split := Nat.div_add_mod' (buf.drop p).length size
    have rest := Nat.mod_lt (buf.drop p).length pos
    have blocks : p = 0 → 0 < (buf.drop p).length / size := by
      intro none_
      refine Nat.div_pos ?_ pos
      rw [none_, List.drop_zero]
      exact progress none_
    have fits : s₂.file.cursor + (buf.drop p).length / size * size ≤ cs.length * s₂.fs.fs.clusterLength := by
      rw [List.length_drop] at split ⊢
      rw [length₂]
      omega
    obtain ⟨s₃, run₃, put₃, settled₃⟩ := writeBlocks_put _ rfl put₂.holds (length₂ ▸ denotes₂)
      (by rw [cursor₂, aligned]) fits
    rw [length₂] at settled₃
    refine Or.inr ⟨p + (buf.drop p).length / size * size, s₃, ?_, ?_, ?_, ?_, ?_, ?_, ?_⟩
    · rw [Exec.bind_of_ok run₃, remainderOf, List.drop_drop]
    · rw [List.take_add]
      exact (put₁.trans put₂).trans put₃
    · rcases settled₃ with settled | ⟨none_, rfl⟩
      · exact settled
      · exact settled₂.resolve_right fun stayed => absurd none_ (Nat.pos_iff_ne_zero.mp (blocks stayed.1))
    · rcases Nat.eq_zero_or_pos p with none_ | some_
      · have least := Nat.mul_le_mul_right size (blocks none_)
        omega
      · omega
    · rw [List.length_drop] at split ⊢
      omega
    · rw [← Nat.add_assoc, Nat.add_mul_mod_self_right, aligned]
    · rw [List.length_drop] at split rest ⊢
      omega
  · rw [if_neg more]
    have taken : buf.take p = buf := List.take_of_length_le (by omega)
    rw [taken] at put₂
    refine Or.inl ⟨s₂, rfl, put₁.trans put₂, settled₂.resolve_right ?_, whole (by omega)⟩
    rintro ⟨none_, _⟩
    omega

theorem writeBytes_put (holds : Holds home cs s) (denotes : Denotes s.fs.fs.clusterLength cs s.file)
    {buf : List UInt8} (nonempty : buf ≠ [])
    (room : s.file.cursor + buf.length ≤ cs.length * s.fs.fs.clusterLength)
    (smooth : ¬ Trips size s.fs.fs.clusterLength s.file.cursor buf.length) :
    ∃ s', writeBytes buf s = (.ok (), s') ∧ Put home cs buf s s' ∧
      Settled s.fs.fs.clusterLength cs s'.file := by
  rcases writeBytes_front holds denotes nonempty room with ⟨s', run, put, settled, _⟩ | ⟨k, s₁, run, front⟩
  · exact ⟨s', run, put, settled⟩
  obtain ⟨put₁, settled₁, some_, inside, aligned, short⟩ := front
  have length₁ := put₁.clusterLength
  have cursor₁ : s₁.file.cursor = s.file.cursor + k := by
    rw [put₁.cursor, List.length_take]
    omega
  by_cases rest : buf.drop k = []
  · have all : buf.take k = buf := by
      rw [List.drop_eq_nil_iff] at rest
      exact List.take_of_length_le rest
    refine ⟨s₁, ?_, all ▸ put₁, settled₁⟩
    rw [run, rest]
    rfl
  · have left : 0 < (buf.drop k).length := List.length_pos_iff.mpr rest
    rw [List.length_drop] at left
    have partly : (s.file.cursor + k) % s.fs.fs.clusterLength ≠ 0 := by
      intro whole
      exact smooth ((trips_iff holds aligned some_ inside short).mpr ⟨whole, by omega⟩)
    have inside₁ := settled₁.inside (cursor₁ ▸ partly)
    rw [← length₁] at inside₁
    obtain ⟨s', run', put', settled'⟩ := writePartialSector_put put₁.holds inside₁ rest
    have everything : partialLength size s₁.file.cursor (buf.drop k).length = (buf.drop k).length := by
      rw [partialLength, cursor₁, aligned, List.length_drop, if_pos (Or.inr short)]
      omega
    rw [everything, List.take_length] at put'
    rw [everything, List.length_drop, length₁] at settled'
    refine ⟨s', ?_, ?_, settled'.resolve_right fun none_ => absurd none_.1 (by omega)⟩
    · rw [run, Exec.bind_of_ok run']
      rfl
    · have whole := put₁.trans put'
      rwa [List.take_append_drop] at whole

/-- A write that trips subtracts from zero. -/
theorem writeBytes_panics (holds : Holds home cs s) (denotes : Denotes s.fs.fs.clusterLength cs s.file)
    {buf : List UInt8} (nonempty : buf ≠ [])
    (room : s.file.cursor + buf.length ≤ cs.length * s.fs.fs.clusterLength)
    (trips : Trips size s.fs.fs.clusterLength s.file.cursor buf.length) :
    ∃ s', writeBytes buf s = (.error .panic, s') := by
  obtain ⟨length, pos, bound⟩ := holds.clusterLength
  rcases writeBytes_front holds denotes nonempty room with ⟨_, _, _, _, within⟩ | ⟨k, s₁, run, front⟩
  · rw [length] at trips
    exact absurd trips (not_trips_within within)
  obtain ⟨put₁, settled₁, some_, inside, aligned, short⟩ := front
  have cursor₁ : s₁.file.cursor = s.file.cursor + k := by
    rw [put₁.cursor, List.length_take]
    omega
  rw [trips_iff holds aligned some_ inside short, ← cursor₁] at trips
  obtain ⟨whole, left⟩ := trips
  obtain ⟨_, _, used, cluster⟩ := settled₁.past whole
  have rest : buf.drop k ≠ [] := by
    rw [← List.length_pos_iff, List.length_drop]
    omega
  have start : s₁.file.cursor % size = 0 := by rw [cursor₁, aligned]
  obtain ⟨s₂, run₂, _, _, file₂⟩ := writePartialSector_stores put₁.holds (List.mem_of_getElem? cluster) rest
    (Or.inr (by rw [List.length_drop]; exact short))
  have file₂ := eq_of_bare file₂
  have capacity := holds.capacity
  rw [start, Nat.sub_zero, List.length_drop, Nat.min_eq_left (by omega)] at run₂
  have sector : size ≤ s.fs.fs.clusterLength := by
    rw [length]
    exact Nat.le_mul_of_pos_right size holds.layout.sectorsPerCluster
  have cursor₂ : s₂.file.cursor = s₁.file.cursor := by rw [file₂]; rfl
  have used₂ : s₂.file.remainingBytesInCluster = 0 := by rw [file₂]; exact used
  have panics := moveFileCursor_panics (s := s₂) (k := buf.length - k) (by omega) (by omega) (by omega)
  exact ⟨_, run.trans (Exec.bind_of_error (run₂.trans (Exec.bind_of_error panics)))⟩

end File

end ExFatSlim
