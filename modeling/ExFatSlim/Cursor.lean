import ExFatSlim.Growth
import Mathlib.Data.List.GetD

namespace ExFatSlim

namespace Volume

variable {size : Nat} {home : Nat → CacheKind} {v v' : Volume size} {cs : List Nat}

/-- A later volume in which nothing but data sectors differs. -/
structure Rewritten (home : Nat → CacheKind) (v v' : Volume size) : Prop where
  setup : v'.setup = v.setup
  others : ∀ s, home s ≠ .data → v'.sectors s = v.sectors s

theorem Rewritten.refl (v : Volume size) : Rewritten home v v := ⟨rfl, fun _ _ => rfl⟩

theorem Rewritten.trans {v'' : Volume size} (first : Rewritten home v v') (second : Rewritten home v' v'') :
    Rewritten home v v'' :=
  ⟨second.setup.trans first.setup, fun s foreign => (second.others s foreign).trans (first.others s foreign)⟩

theorem store_rewritten (v : Volume size) {s : Nat} (here : home s = .data) (b : Block size) :
    Rewritten home v (v.store s b) := by
  refine ⟨rfl, fun t foreign => store_sectors_ne v ?_ b⟩
  rintro rfl
  exact foreign here

theorem Rewritten.inHeap (rewritten : Rewritten home v v') {c : Nat} : v'.InHeap c ↔ v.InHeap c := by
  rw [InHeap, InHeap, endCluster, endCluster, rewritten.setup]

theorem Rewritten.isData (rewritten : Rewritten home v v') {c : Nat} : v'.IsData home c ↔ v.IsData home c := by
  simp only [IsData, dataSector, rewritten.setup]

theorem Rewritten.isFree (rewritten : Rewritten home v v') (layout : BitmapLayout size home v.setup) {c : Nat}
    (inHeap : v.InHeap c) : v'.IsFree c ↔ v.IsFree c := by
  have place := layout.sectors _ (layout.sector_lt inHeap)
  rw [IsFree, IsFree, isFreeCluster, isFreeCluster, rewritten.setup, rewritten.others _ (by simp [place.2])]

theorem Rewritten.fatEntry (rewritten : Rewritten home v v') (layout : Layout size home v.setup) {c : Nat}
    (inHeap : v.InHeap c) : v'.fatEntry c = v.fatEntry c := by
  have place := layout.fatSector_home inHeap
  have sector : v'.fatSector c = v.fatSector c := by rw [fatSector, fatSector, rewritten.setup]
  rw [Volume.fatEntry, Volume.fatEntry, sector, rewritten.others _ (by simp [place])]

theorem Rewritten.owns (rewritten : Rewritten home v v') (layout : Layout size home v.setup) {noFatChain : Bool}
    {chain : StoredChain} (owns : v.Owns home noFatChain chain cs) : v'.Owns home noFatChain chain cs := by
  have same : ∀ c ∈ cs, v'.next c = v.next c := fun c member =>
    next_of_fatEntry (rewritten.fatEntry layout (owns.inHeap c member))
  refine ⟨owns.lists, fun noFat => ⟨?_, fun c atEnd => ?_⟩, owns.stored, owns.distinct,
    fun c member => rewritten.inHeap.mpr (owns.inHeap c member), fun c member => ?_,
    fun c member => rewritten.isData.mpr (owns.data c member)⟩
  · exact (owns.threads noFat).linked.of_same fun c member => same c (List.dropLast_subset _ member)
  · rw [same c (List.mem_of_getLast? atEnd)]
    exact (owns.threads noFat).ended c atEnd
  · rw [rewritten.isFree layout.toBitmapLayout (owns.inHeap c member)]
    exact owns.used c member

/-- The FAT leads from each cluster to the next one, and no further than the last. -/
theorem Threads.next_eq (threads : v.Threads cs) {j c : Nat} (here : cs[j]? = some c) :
    v.next c = cs[j + 1]? := by
  obtain ⟨index, current⟩ := List.getElem?_eq_some_iff.mp here
  by_cases more : j + 1 < cs.length
  · rw [List.getElem?_eq_getElem more, ← current]
    exact List.isChain_iff_getElem.mp threads.linked j more
  · have final : cs.getLast? = some c := by
      rw [List.getLast?_eq_getElem?, ← here]
      congr 1
      omega
    rw [List.getElem?_eq_none (by omega), threads.ended _ final]

/-- The sector with number `k` of a file with clusters `cs`. -/
def fileSector (v : Volume size) (cs : List Nat) (k : Nat) : Nat :=
  v.dataSector (cs.getD (k / v.setup.details.sectorsPerCluster) 0) (k % v.setup.details.sectorsPerCluster)

/-- The byte with number `i` of a file with clusters `cs`. -/
def fileByte (v : Volume size) (cs : List Nat) (i : Nat) : UInt8 :=
  (v.sectors (v.fileSector cs (i / size))).byte (i % size)

section FileSectors

variable (layout : Layout size home v.setup) (inHeap : ∀ c ∈ cs, v.InHeap c)

include layout

theorem dataSector_lt {c i : Nat} (inHeap : v.InHeap c) (inside : i < v.setup.details.sectorsPerCluster) :
    v.dataSector c i < 2 ^ 32 := by
  have heap := layout.heap
  have high : c < 2 + v.setup.bitmap.clusterCount := inHeap.2
  have low := inHeap.1
  have block : (c - 2) * v.setup.details.sectorsPerCluster + v.setup.details.sectorsPerCluster ≤
      v.setup.bitmap.clusterCount * v.setup.details.sectorsPerCluster := by
    rw [← Nat.succ_mul]
    exact Nat.mul_le_mul_right _ (by omega)
  rw [dataSector]
  omega

omit layout in
theorem dataSector_inj {c d i j : Nat} (lowC : 2 ≤ c) (lowD : 2 ≤ d)
    (insideI : i < v.setup.details.sectorsPerCluster) (insideJ : j < v.setup.details.sectorsPerCluster)
    (same : v.dataSector c i = v.dataSector d j) : c = d ∧ i = j := by
  have equal : i + (c - 2) * v.setup.details.sectorsPerCluster =
      j + (d - 2) * v.setup.details.sectorsPerCluster := by
    simp only [dataSector] at same
    omega
  have quotient := congrArg (· / v.setup.details.sectorsPerCluster) equal
  have rest := congrArg (· % v.setup.details.sectorsPerCluster) equal
  have pos : 0 < v.setup.details.sectorsPerCluster := by omega
  simp only [Nat.add_mul_div_right _ _ pos, Nat.div_eq_of_lt insideI, Nat.div_eq_of_lt insideJ,
    Nat.add_mul_mod_self_right, Nat.mod_eq_of_lt insideI, Nat.mod_eq_of_lt insideJ] at quotient rest
  omega

theorem fileSector_cluster {k : Nat} (inside : k < cs.length * v.setup.details.sectorsPerCluster) :
    k / v.setup.details.sectorsPerCluster < cs.length ∧
      k % v.setup.details.sectorsPerCluster < v.setup.details.sectorsPerCluster :=
  ⟨(Nat.div_lt_iff_lt_mul layout.sectorsPerCluster).mpr inside, Nat.mod_lt _ layout.sectorsPerCluster⟩

theorem fileSector_home (data : ∀ c ∈ cs, v.IsData home c) {k : Nat}
    (inside : k < cs.length * v.setup.details.sectorsPerCluster) : home (v.fileSector cs k) = .data := by
  obtain ⟨index, offset⟩ := fileSector_cluster layout inside
  rw [fileSector, List.getD_eq_getElem _ _ index]
  exact data _ (List.getElem_mem index) _ offset

include inHeap in
theorem fileSector_inj (distinct : cs.Nodup) {k l : Nat}
    (insideK : k < cs.length * v.setup.details.sectorsPerCluster)
    (insideL : l < cs.length * v.setup.details.sectorsPerCluster) (same : v.fileSector cs k = v.fileSector cs l) :
    k = l := by
  obtain ⟨indexK, offsetK⟩ := fileSector_cluster layout insideK
  obtain ⟨indexL, offsetL⟩ := fileSector_cluster layout insideL
  rw [fileSector, fileSector, List.getD_eq_getElem _ _ indexK, List.getD_eq_getElem _ _ indexL] at same
  obtain ⟨cluster, offset⟩ := dataSector_inj (inHeap _ (List.getElem_mem indexK)).1
    (inHeap _ (List.getElem_mem indexL)).1 offsetK offsetL same
  have index := (distinct.getElem_inj_iff).mp cluster
  rw [← Nat.div_add_mod k v.setup.details.sectorsPerCluster, ← Nat.div_add_mod l v.setup.details.sectorsPerCluster,
    index, offset]

end FileSectors

end Volume

/-- A mounted volume is not mounted again. -/
theorem FileSystem.mount_of_mounted {size n : Nat} {fs : FileSystem size n} (mounted : fs.isMounted = true) :
    mount fs = (.ok (), fs) := by
  rw [mount, Exec.bind_of_ok (Exec.get_apply fs), if_pos mounted]
  rfl

namespace FileSession

variable {size n : Nat} {home : Nat → CacheKind} {s s' : FileSession size n} {cs : List Nat} {j : Nat}

/-- A handle keeps its chain while data sectors are written and the cursor moves. -/
theorem Holds.rewritten (holds : Holds home cs s) (sound : s'.fs.Sound home)
    (volume : Volume.Rewritten home (s.fs.volume home) (s'.fs.volume home))
    (chain : s'.file.chain = s.file.chain)
    (flags : s'.file.details.flags = s.file.details.flags) : Holds home cs s' := by
  have setup : s'.fs.setup = s.fs.setup := volume.setup
  refine ⟨sound, setup ▸ holds.layout, setup ▸ holds.search, fun c inHeap free => ?_, ?_⟩
  · have inHeap := volume.inHeap.mp inHeap
    exact volume.isData.mpr (holds.room c inHeap ((volume.isFree holds.layout.toBitmapLayout inHeap).mp free))
  · rw [chain, flags]
    exact volume.owns holds.layout holds.owns

theorem Holds.clusterLength (holds : Holds home cs s) :
    s.fs.fs.clusterLength = size * s.fs.fs.sectorsPerCluster ∧ 0 < s.fs.fs.clusterLength ∧
      s.fs.fs.clusterLength < 2 ^ 32 := by
  have length : s.fs.fs.clusterLength = size * s.fs.fs.sectorsPerCluster := holds.layout.clusterLength
  refine ⟨length, ?_, holds.layout.clusterBound⟩
  rw [length]
  exact Nat.mul_pos holds.layout.pos holds.layout.sectorsPerCluster

/-- A cluster has a sector for every place in it. -/
theorem Holds.offset (holds : Holds home cs s) (i : Nat) :
    i % s.fs.fs.clusterLength / size < s.fs.fs.sectorsPerCluster := by
  obtain ⟨length, pos, _⟩ := holds.clusterLength
  rw [Nat.div_lt_iff_lt_mul holds.layout.pos, Nat.mul_comm, ← length]
  exact Nat.mod_lt _ pos

theorem modifyFile_apply (f : File → File) (s : FileSession size n) :
    modifyFile f s = (.ok (), ⟨s.fs, f s.file⟩) := rfl

theorem mount_run (mounted : s.fs.isMounted = true) : onFs FileSystem.mount s = (.ok (), s) := by
  rw [onFs, Exec.zoom_of_run (FileSystem.mount_of_mounted mounted)]

theorem leads_write (sound : s.fs.Sound home) {t : Nat} (here : home t = .data) (b : Block size) :
    Leads home (onFs (FileSystem.onCache .data (SlotCache.write t b))) s (.ok ())
      ((s.fs.volume home).store t b, s.file.bare) := by
  obtain ⟨fs', run, wrote, _⟩ := FileSystem.onCache_write sound here b
  exact leads_onFs (.of_run run wrote.sound wrote.volume)

theorem leads_readMut (sound : s.fs.Sound home) {t : Nat} (here : home t = .data) (f : Block size → Block size) :
    Leads home (onFs (FileSystem.onCache .data (SlotCache.readMut t f))) s
      (.ok (f ((s.fs.volume home).sectors t)))
      ((s.fs.volume home).store t (f ((s.fs.volume home).sectors t)), s.file.bare) := by
  obtain ⟨fs', run, wrote, _⟩ := FileSystem.onCache_readMut sound here f
  exact leads_onFs (.of_run run wrote.sound wrote.volume)

end FileSession

namespace File

open FileSession

variable {size n : Nat} {home : Nat → CacheKind} {s : FileSession size n} {cs : List Nat} {j : Nat}

/-- The cluster after the current one, along the chain. -/
theorem nextCursorId_leads (holds : Holds home cs s) (here : cs[j]? = some s.file.currentCluster) :
    FileSession.Leads home nextCursorId s
      (match cs[j + 1]? with
        | some c => .ok c
        | none => .error (.error .endOfFatChain)) (s.fs.volume home, s.file.bare) := by
  obtain ⟨index, current⟩ := List.getElem?_eq_some_iff.mp here
  have lists := holds.owns.lists
  rw [nextCursorId]
  refine .get ?_
  dsimp only
  cases chain : s.file.chain with
  | empty =>
    rw [chain] at lists
    subst lists
    simp at index
  | contiguous first clusterCount =>
    have bound := holds.bound (show Allocator.hintOf s.file.chain = some (first + clusterCount) by rw [chain]; rfl)
    rw [chain] at lists
    obtain ⟨pos, rfl⟩ := lists
    rw [List.length_range'] at index
    have current : s.file.currentCluster = first + j := by rw [← current]; simp
    have inside : s.file.currentCluster + 1 < 2 ^ 32 := by omega
    dsimp only
    refine .step (u32_of_lt inside s) (.step (u32_of_lt bound s) ?_)
    by_cases more : j + 1 < clusterCount
    · rw [if_pos ⟨by omega, by omega⟩, List.getElem?_range' more]
      refine .of_run ?_ holds.sound rfl
      simp [current, Nat.add_assoc]
    · rw [if_neg (by omega), List.getElem?_eq_none (by simpa using more)]
      exact .of_run rfl holds.sound rfl
  | fat first last clusterCount =>
    have threads := holds.owns.threads (holds.owns.stored first last clusterCount chain)
    have member : s.file.currentCluster ∈ cs := List.mem_of_getElem? here
    have follow := threads.next_eq here
    have fetched := leads_onFs (s := s)
      (Fat.nextClusterInFatChain_leads holds.sound holds.layout (holds.owns.inHeap _ member))
    rw [follow] at fetched
    refine fetched.bind fun s' sound' shown' => ?_
    cases cs[j + 1]? with
    | some c => exact .of_run rfl sound' shown'
    | none => exact .of_run rfl sound' shown'

/-- In the middle of a cluster nothing happens. -/
theorem nextClusterIfRequired_stay (sound : s.fs.Sound home) (some_ : s.file.remainingBytesInCluster ≠ 0) :
    FileSession.Leads home nextClusterIfRequired s (.ok ()) (s.fs.volume home, s.file.bare) := by
  rw [nextClusterIfRequired]
  refine .get ?_
  rw [if_neg some_]
  exact .of_run rfl sound rfl

theorem nextClusterIfRequired_move (holds : Holds home cs s) (here : cs[j]? = some s.file.currentCluster)
    (none_ : s.file.remainingBytesInCluster = 0) {c : Nat} (follow : cs[j + 1]? = some c) :
    FileSession.Leads home nextClusterIfRequired s (.ok ()) (s.fs.volume home,
      { s.file.bare with currentCluster := c, remainingBytesInCluster := s.fs.fs.clusterLength }) := by
  have next := nextCursorId_leads holds here
  rw [follow] at next
  rw [nextClusterIfRequired]
  refine .get ?_
  rw [if_pos none_]
  refine next.bind fun s₁ sound₁ shown₁ => ?_
  obtain ⟨volume₁, file₁⟩ := Prod.mk.inj shown₁
  refine (leads_modifyFile sound₁ _).bind fun s₂ sound₂ shown₂ => .get ?_
  obtain ⟨volume₂, file₂⟩ := Prod.mk.inj shown₂
  have setup : s₂.fs.setup = s.fs.setup := congrArg Volume.setup (volume₂.trans volume₁)
  have length : s₂.fs.fs.clusterLength = s.fs.fs.clusterLength :=
    congrArg (fun u : Setup => u.details.clusterLength) setup
  have file : { s₂.file.bare with remainingBytesInCluster := s₂.fs.fs.clusterLength } =
      { s.file.bare with currentCluster := c, remainingBytesInCluster := s.fs.fs.clusterLength } := by
    rw [file₂, length, ← file₁]
    rfl
  exact .of_run rfl sound₂ (Prod.ext (volume₂.trans volume₁) file)

theorem nextClusterIfRequired_stuck (holds : Holds home cs s) (here : cs[j]? = some s.file.currentCluster)
    (none_ : s.file.remainingBytesInCluster = 0) (follow : cs[j + 1]? = none) :
    FileSession.Leads home nextClusterIfRequired s (.error (.error .endOfFatChain))
      (s.fs.volume home, s.file.bare) := by
  have next := nextCursorId_leads holds here
  rw [follow] at next
  rw [nextClusterIfRequired]
  refine .get ?_
  rw [if_pos none_]
  exact next.bind_error

theorem getHeapSectorId_run {size : Nat} {home : Nat → CacheKind} {v : Volume size} {σ : Type}
    (layout : Layout size home v.setup) {c : Nat} (inHeap : v.InHeap c) (t : σ) :
    (v.setup.details.getHeapSectorId c : ExFat σ Nat) t = (.ok (v.dataSector c 0), t) := by
  have bound := v.dataSector_lt layout inHeap layout.sectorsPerCluster
  rw [FileSystemDetails.getHeapSectorId, if_neg (by have := inHeap.1; omega)]
  exact u32_of_lt bound t

/-- The sector of the cursor within the current cluster. -/
theorem getCurrentSectorId_run (holds : Holds home cs s) (here : s.file.currentCluster ∈ cs) :
    getCurrentSectorId s = (.ok ((s.fs.volume home).dataSector s.file.currentCluster
      (s.file.cursor % s.fs.fs.clusterLength / size)), s) := by
  have layout := holds.layout
  have inHeap := holds.owns.inHeap _ here
  have bound := Volume.dataSector_lt (v := s.fs.volume home) layout inHeap (holds.offset s.file.cursor)
  have start : (s.fs.fs.getHeapSectorId s.file.currentCluster : ExFat (FileSession size n) Nat) s =
      (.ok ((s.fs.volume home).dataSector s.file.currentCluster 0), s) :=
    getHeapSectorId_run (v := s.fs.volume home) layout inHeap s
  rw [getCurrentSectorId, Exec.bind_of_ok (Exec.get_apply s), Exec.bind_of_ok start]
  exact u32_of_lt bound s

theorem moveFileCursor_run {k : Nat} (fits : s.file.cursor + k < 2 ^ 64) (small : k < 2 ^ 32)
    (enough : k ≤ s.file.remainingBytesInCluster) :
    moveFileCursor k s = (.ok (), ⟨s.fs, { s.file with
      cursor := s.file.cursor + k, remainingBytesInCluster := s.file.remainingBytesInCluster - k }⟩) := by
  rw [moveFileCursor, Exec.bind_of_ok (Exec.get_apply s), Exec.bind_of_ok (u64_of_lt fits s)]
  rw [Exec.bind_of_ok (modifyFile_apply _ s), Nat.mod_eq_of_lt small, Exec.bind_of_ok (minus_of_le enough _)]
  rfl

/-- The subtraction that `move_file_cursor` does not check. -/
theorem moveFileCursor_panics {k : Nat} (fits : s.file.cursor + k < 2 ^ 64) (small : k < 2 ^ 32)
    (short : s.file.remainingBytesInCluster < k) :
    moveFileCursor k s = (.error .panic, ⟨s.fs, { s.file with cursor := s.file.cursor + k }⟩) := by
  rw [moveFileCursor, Exec.bind_of_ok (Exec.get_apply s), Exec.bind_of_ok (u64_of_lt fits s)]
  rw [Exec.bind_of_ok (modifyFile_apply _ s), Nat.mod_eq_of_lt small, Exec.bind_of_error (minus_of_lt short _)]

end File

end ExFatSlim
