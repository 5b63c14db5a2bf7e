import ExFatSlim.BitmapScan
import ExFatSlim.Volume

namespace ExFatSlim

theorem mask_eq_twoPow {k : Nat} (small : k < 8) :
    ((1 : UInt8) <<< UInt8.ofNat k).toBitVec = BitVec.twoPow 8 k :=
  (by decide : ∀ k < 8, ((1 : UInt8) <<< UInt8.ofNat k).toBitVec = BitVec.twoPow 8 k) k small

theorem isFree_eq_getLsbD (x : UInt8) {k : Nat} (small : k < 8) :
    isFree x k = !x.toBitVec.getLsbD k := by
  have zero : (x &&& ((1 : UInt8) <<< UInt8.ofNat k) = 0) ↔ x.toBitVec.getLsbD k = false := by
    rw [← UInt8.toBitVec_inj, UInt8.toBitVec_and, mask_eq_twoPow small, BitVec.and_twoPow]
    cases bit : x.toBitVec.getLsbD k with
    | false => simp
    | true =>
      simp only [if_true, Bool.true_eq_false, iff_false]
      intro none
      have one := congrArg (fun y => y.getLsbD k) none
      simp [small] at one
  cases bit : x.toBitVec.getLsbD k with
  | false => simpa [isFree, bit] using zero
  | true => simpa [isFree, bit] using zero

theorem isFree_setBit (x : UInt8) {j k : Nat} (smallJ : j < 8) (smallK : k < 8) (set : Bool) :
    isFree (setBit x k set) j = if j = k then !set else isFree x j := by
  rw [isFree_eq_getLsbD _ smallJ, isFree_eq_getLsbD _ smallJ]
  cases set with
  | true =>
    rw [setBit, if_pos rfl, UInt8.toBitVec_or, mask_eq_twoPow smallK, BitVec.getLsbD_or,
      BitVec.getLsbD_twoPow]
    by_cases same : j = k
    · simp [same, smallK]
    · have other : ¬ k = j := fun equal => same equal.symm
      simp [same, other]
  | false =>
    rw [setBit, if_neg (by simp), UInt8.toBitVec_and, UInt8.toBitVec_not, mask_eq_twoPow smallK,
      BitVec.getLsbD_and, BitVec.getLsbD_not, BitVec.getLsbD_twoPow]
    by_cases same : j = k
    · simp [same, smallK]
    · have other : ¬ k = j := fun equal => same equal.symm
      simp [same, other, smallJ]

/-- Whether bit `j` of a bitmap sector is clear. -/
def freeInBlock {size : Nat} (b : Block size) (j : Nat) : Bool := isFree (b.byte (j / 8)) (j % 8)

theorem freeInBlock_setOne {size : Nat} (b : Block size) {i j : Nat} (inside : i < size * 8) (set : Bool) :
    freeInBlock (b.patch (i / 8) [setBit (b.byte (i / 8)) (i % 8) set]) j =
      if j = i then !set else freeInBlock b j := by
  have smallI : i % 8 < 8 := Nat.mod_lt _ (by decide)
  have smallJ : j % 8 < 8 := Nat.mod_lt _ (by decide)
  unfold freeInBlock
  by_cases byte : j / 8 = i / 8
  · have fits : i / 8 + 0 < size := by omega
    have patched : (b.patch (i / 8) [setBit (b.byte (i / 8)) (i % 8) set]).byte (i / 8 + 0) =
        [setBit (b.byte (i / 8)) (i % 8) set][0] := b.byte_patch_inside fits (by simp)
    rw [Nat.add_zero] at patched
    rw [byte, patched, List.getElem_cons_zero, isFree_setBit _ smallJ smallI]
    by_cases bit : j % 8 = i % 8
    · have same : j = i := by omega
      simp [same]
    · have other : j ≠ i := fun equal => bit (by rw [equal])
      simp [bit, other]
  · have other : j ≠ i := fun equal => byte (by rw [equal])
    rw [if_neg other, b.byte_patch_outside]
    simp only [List.length_singleton]
    omega

theorem freeInBlock_setBitRange {size : Nat} (b : Block size) {start taken : Nat}
    (inside : start + taken ≤ size * 8) (set : Bool) (j : Nat) :
    freeInBlock (setBitRange b start taken set) j =
      if start ≤ j ∧ j < start + taken then !set else freeInBlock b j := by
  induction taken with
  | zero =>
    rw [if_neg (by omega)]
    rfl
  | succ taken ih =>
    have step : setBitRange b start (taken + 1) set =
        (setBitRange b start taken set).patch ((start + taken) / 8)
          [setBit ((setBitRange b start taken set).byte ((start + taken) / 8)) ((start + taken) % 8) set] := by
      simp only [setBitRange, List.range'_concat, List.foldl_append, List.foldl_cons, List.foldl_nil,
        Nat.one_mul]
    rw [step, freeInBlock_setOne _ (by omega), ih (by omega)]
    by_cases last : j = start + taken
    · rw [if_pos last, if_pos (by omega)]
    · rw [if_neg last]
      by_cases before : start ≤ j ∧ j < start + taken
      · rw [if_pos before, if_pos (by omega)]
      · rw [if_neg before, if_neg (by omega)]

namespace Volume

variable {size : Nat}

/-- Whether the bit of a cluster is clear in the allocation bitmap. -/
def isFreeCluster (v : Volume size) (c : Nat) : Bool :=
  freeInBlock (v.sectors (v.setup.bitmap.firstSector + (BitmapPos.of size c).sector))
    (BitmapPos.of size c).bit

/-- The bits of one chunk set or cleared. -/
def markChunk (allocated : Bool) (v : Volume size) (chunk : BitmapChunk) : Volume size :=
  v.store (v.setup.bitmap.firstSector + chunk.sector)
    (setBitRange (v.sectors (v.setup.bitmap.firstSector + chunk.sector)) chunk.start chunk.taken allocated)

/-- The volume with the bits of a run of clusters set or cleared. -/
def mark (v : Volume size) (run : AllocatedRun) (allocated : Bool) : Volume size :=
  (bitmapRunChunks size run.firstCluster run.clusterCount).foldl (markChunk allocated) v

theorem markChunk_setup (allocated : Bool) (v : Volume size) (chunk : BitmapChunk) :
    (v.markChunk allocated chunk).setup = v.setup := rfl

theorem foldl_markChunk_setup (allocated : Bool) (chunks : List BitmapChunk) (v : Volume size) :
    (chunks.foldl (markChunk allocated) v).setup = v.setup := by
  induction chunks generalizing v with
  | nil => rfl
  | cons chunk rest ih => rw [List.foldl_cons, ih, markChunk_setup]

/-- Marking chunks changes no sector that is not of one of them. -/
theorem foldl_markChunk_ne (allocated : Bool) (chunks : List BitmapChunk) {s : Nat} : ∀ {v : Volume size},
    (∀ chunk ∈ chunks, s ≠ v.setup.bitmap.firstSector + chunk.sector) →
      (chunks.foldl (markChunk allocated) v).sectors s = v.sectors s := by
  induction chunks with
  | nil => exact fun _ => rfl
  | cons chunk rest ih =>
    intro v apart
    have later : ∀ c ∈ rest, s ≠ (v.markChunk allocated chunk).setup.bitmap.firstSector + c.sector :=
      List.forall_mem_of_forall_mem_cons apart
    rw [List.foldl_cons, ih later]
    exact store_sectors_ne v (apart chunk List.mem_cons_self) _

@[simp] theorem mark_setup (v : Volume size) (run : AllocatedRun) (allocated : Bool) :
    (v.mark run allocated).setup = v.setup :=
  foldl_markChunk_setup ..

end Volume

theorem of_bit_lt {size : Nat} (pos : 0 < size) (c : Nat) : (BitmapPos.of size c).bit < size * 8 :=
  Nat.mod_lt _ (by simp only [BitmapPos.clustersPerSector]; omega)

theorem of_eq_iff {size c : Nat} (pos : 0 < size) {p : BitmapPos} (atLeast : 2 ≤ c)
    (small : p.bit < size * 8) :
    BitmapPos.of size c = p ↔ c = p.sector * (size * 8) + p.bit + 2 := by
  have base : c - 2 = (c - 2) / (size * 8) * (size * 8) + (c - 2) % (size * 8) :=
    (Nat.div_add_mod' _ _).symm
  constructor
  · rintro rfl
    simp only [BitmapPos.of, BitmapPos.clustersPerSector, firstClusterId]
    omega
  · intro equal
    have shifted : c - 2 = p.bit + size * 8 * p.sector := by rw [Nat.mul_comm]; omega
    have width : 0 < size * 8 := by omega
    cases p with
    | mk sector bit =>
      simp only [BitmapPos.of, BitmapPos.clustersPerSector, firstClusterId, shifted, BitmapPos.mk.injEq]
      rw [Nat.add_mul_div_left _ _ width, Nat.div_eq_of_lt small, Nat.add_mul_mod_self_left,
        Nat.mod_eq_of_lt small]
      exact ⟨Nat.zero_add _, rfl⟩

/-- A chunk of a run of clusters: whole, within one sector of the bitmap. -/
structure ChunkOf (size first : Nat) (chunk : BitmapChunk) : Prop where
  starts : chunk.sector * (size * 8) + chunk.start + 2 = first
  fits : chunk.start + chunk.taken ≤ size * 8

namespace Volume

variable {size : Nat}

theorem isFreeCluster_markChunk (pos : 0 < size) (v : Volume size) (allocated : Bool) {first : Nat}
    {chunk : BitmapChunk} (part : ChunkOf size first chunk) {c : Nat} (atLeast : 2 ≤ c) :
    (v.markChunk allocated chunk).isFreeCluster c =
      if first ≤ c ∧ c < first + chunk.taken then !allocated else v.isFreeCluster c := by
  obtain ⟨starts, fits⟩ := part
  have width : 0 < size * 8 := by omega
  have small := of_bit_lt pos c
  have position := (of_eq_iff pos atLeast small).mp rfl
  rw [isFreeCluster, markChunk_setup, isFreeCluster]
  by_cases here : (BitmapPos.of size c).sector = chunk.sector
  · rw [here] at position ⊢
    rw [markChunk, store_sectors_self, freeInBlock_setBitRange _ fits]
    by_cases inside : first ≤ c ∧ c < first + chunk.taken
    · rw [if_pos inside, if_pos (by omega)]
    · rw [if_neg inside, if_neg (by omega)]
  · -- another sector, so another cluster than those of the chunk
    have outside : ¬ (first ≤ c ∧ c < first + chunk.taken) := by
      rintro ⟨above, below⟩
      apply here
      have place : c = chunk.sector * (size * 8) + (c - first + chunk.start) + 2 := by omega
      have found := (of_eq_iff (p := ⟨chunk.sector, c - first + chunk.start⟩) pos atLeast
        (by dsimp only; omega)).mpr place
      rw [found]
    have apart : v.setup.bitmap.firstSector + (BitmapPos.of size c).sector ≠
        v.setup.bitmap.firstSector + chunk.sector := by omega
    rw [if_neg outside, markChunk, store_sectors_ne _ apart]

end Volume

theorem chunkOf_first {size first : Nat} (pos : 0 < size) (atLeast : 2 ≤ first) (remaining : Nat) :
    ChunkOf size first ⟨(BitmapPos.of size first).sector, (BitmapPos.of size first).bit,
      min (BitmapPos.clustersPerSector size - (BitmapPos.of size first).bit) remaining⟩ := by
  have small := of_bit_lt pos first
  have position := (of_eq_iff pos atLeast small).mp rfl
  refine ⟨position.symm, ?_⟩
  simp only [BitmapPos.clustersPerSector]
  omega

/-- The chunks of a run mark its clusters and no other. -/
theorem Volume.isFreeCluster_chunks {size : Nat} (pos : 0 < size) (allocated : Bool) {c : Nat}
    (atLeast : 2 ≤ c) (rounds : Nat) : ∀ (v : Volume size) (first remaining : Nat), 2 ≤ first →
    remaining ≤ rounds →
    ((bitmapRunChunksIn size rounds first remaining).foldl (markChunk allocated) v).isFreeCluster c =
      if first ≤ c ∧ c < first + remaining then !allocated else v.isFreeCluster c := by
  induction rounds with
  | zero =>
    intro v first remaining _ few
    rw [if_neg (by omega)]
    rfl
  | succ rounds ih =>
    intro v first remaining low few
    rw [bitmapRunChunksIn]
    by_cases none : remaining = 0
    · rw [if_pos none, if_neg (by omega)]
      rfl
    rw [if_neg none]
    have small := of_bit_lt pos first
    have part := chunkOf_first pos low remaining
    simp only [List.foldl_cons]
    generalize taken : min (BitmapPos.clustersPerSector size - (BitmapPos.of size first).bit) remaining = t
    have progress : 0 < t ∧ t ≤ remaining := by
      simp only [BitmapPos.clustersPerSector] at taken
      omega
    rw [taken] at part
    rw [ih _ _ _ (by omega) (by omega), v.isFreeCluster_markChunk pos allocated part atLeast]
    by_cases inside : first ≤ c ∧ c < first + remaining
    · rw [if_pos inside]
      by_cases later : first + t ≤ c ∧ c < first + t + (remaining - t)
      · rw [if_pos later]
      · rw [if_neg later, if_pos (by dsimp only; omega)]
    · rw [if_neg inside, if_neg (by omega), if_neg (by dsimp only; omega)]

theorem Volume.isFreeCluster_mark {size : Nat} (pos : 0 < size) (v : Volume size) {run : AllocatedRun}
    (low : 2 ≤ run.firstCluster) (allocated : Bool) {c : Nat} (atLeast : 2 ≤ c) :
    (v.mark run allocated).isFreeCluster c =
      if run.firstCluster ≤ c ∧ c < run.firstCluster + run.clusterCount then !allocated
      else v.isFreeCluster c :=
  isFreeCluster_chunks pos allocated atLeast _ v _ _ low le_rfl

end ExFatSlim
