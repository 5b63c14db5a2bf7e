import ExFatSlim.AllocatorRuns

namespace ExFatSlim

namespace FileDirty

variable {t : FileDirty}

/-- The sector is in the set, or the set has given up counting. -/
def Records (t : FileDirty) (s : Nat) : Prop := t.overflowed = true ∨ ∃ item ∈ t.sectors, item.sector = s

theorem Records.insert {s : Nat} (records : t.Records s) (item : TouchedSector) : (t.insert item).Records s := by
  unfold FileDirty.insert
  split
  · exact records
  · split
    · rcases records with all | ⟨old, member, same⟩
      · exact Or.inl all
      · exact Or.inr ⟨old, List.mem_append_left _ member, same⟩
    · exact Or.inl rfl

theorem records_insert (t : FileDirty) (item : TouchedSector) : (t.insert item).Records item.sector := by
  unfold FileDirty.insert
  split
  · rename_i known
    obtain ⟨old, member, same⟩ := List.any_eq_true.mp known
    exact Or.inr ⟨old, member, of_decide_eq_true same⟩
  · split
    · exact Or.inr ⟨item, List.mem_append_right _ (List.mem_singleton_self item), rfl⟩
    · exact Or.inl rfl

/-- Whatever was inserted, or recorded before, is recorded. -/
theorem records_foldl {α : Type} (f : α → TouchedSector) (items : List α) : ∀ {t : FileDirty} {s : Nat},
    (t.Records s ∨ ∃ a ∈ items, (f a).sector = s) → (items.foldl (fun t a => t.insert (f a)) t).Records s := by
  induction items with
  | nil =>
    intro t s known
    exact known.resolve_right fun ⟨_, member, _⟩ => absurd member List.not_mem_nil
  | cons a items ih =>
    intro t s known
    rw [List.foldl_cons]
    refine ih ?_
    rcases known with old | ⟨b, member, same⟩
    · exact Or.inl (old.insert _)
    · rcases List.mem_cons.mp member with rfl | later
      · exact Or.inl (same ▸ records_insert t _)
      · exact Or.inr ⟨b, later, same⟩

end FileDirty

namespace Allocator

variable {size n : Nat} {home : Nat → CacheKind} {s : Session size n} {run : AllocatedRun}

/-- A run inside the heap and inside the sectors of the bitmap. -/
structure Marks (size : Nat) (u : Setup) (run : AllocatedRun) : Prop where
  low : 2 ≤ run.firstCluster
  heap : run.firstCluster + run.clusterCount ≤ 2 + u.bitmap.clusterCount
  sectors : run.firstCluster + run.clusterCount ≤ 2 + u.bitmap.numSectors * (size * 8)

instance (size : Nat) (u : Setup) (run : AllocatedRun) : Decidable (Marks size u run) :=
  decidable_of_iff (2 ≤ run.firstCluster ∧ run.firstCluster + run.clusterCount ≤ 2 + u.bitmap.clusterCount ∧
      run.firstCluster + run.clusterCount ≤ 2 + u.bitmap.numSectors * (size * 8))
    ⟨fun ⟨low, heap, sectors⟩ => ⟨low, heap, sectors⟩, fun ⟨low, heap, sectors⟩ => ⟨low, heap, sectors⟩⟩

/-- The bitmap has a bit for a cluster exactly when it has a sector for it. -/
theorem sector_lt_iff (pos : 0 < size) {c : Nat} (low : 2 ≤ c) (m : Nat) :
    (BitmapPos.of size c).sector < m ↔ c < 2 + m * (size * 8) := by
  have small := of_bit_lt pos c
  have place := (of_eq_iff pos low small).mp rfl
  constructor
  · intro within
    have reach : ((BitmapPos.of size c).sector + 1) * (size * 8) ≤ m * (size * 8) := Nat.mul_le_mul_right _ within
    rw [Nat.add_mul, Nat.one_mul] at reach
    omega
  · intro below
    by_contra past
    have reach : m * (size * 8) ≤ (BitmapPos.of size c).sector * (size * 8) :=
      Nat.mul_le_mul_right _ (Nat.le_of_not_lt past)
    omega

theorem markAllocated_refuses (pos : 0 < size) (count : s.fs.setup.bitmap.clusterCount ≤ 2 ^ 32 - 11)
    (allocated : Bool)
    (some_ : run.clusterCount ≠ 0) (outside : ¬ Marks size s.fs.setup run) :
    markAllocated run allocated s = (.error (.error (.invalidClusterId run.firstCluster)), s) := by
  have bitmap : s.fs.setup.bitmap = s.fs.allocator.bitmap := rfl
  rw [bitmap] at count
  rw [markAllocated, if_neg some_]
  by_cases below : run.firstCluster < firstClusterId
  · rw [if_pos below]
    rfl
  · rw [if_neg below]
    by_cases huge : 2 ^ 32 ≤ run.firstCluster + (run.clusterCount - 1)
    · dsimp only
      rw [if_pos huge]
      rfl
    · have low : 2 ≤ run.firstCluster := Nat.le_of_not_lt below
      have past : firstClusterId + s.fs.allocator.bitmap.clusterCount ≤ run.firstCluster + (run.clusterCount - 1) ∨
          s.fs.allocator.bitmap.numSectors ≤
            (BitmapPos.of size (run.firstCluster + (run.clusterCount - 1))).sector := by
        by_contra inside
        rw [not_or, Nat.not_le, Nat.not_le, sector_lt_iff pos (by omega)] at inside
        refine outside ⟨low, ?_, ?_⟩
        · rw [bitmap]
          simp only [firstClusterId] at inside
          omega
        · rw [bitmap]
          omega
      dsimp only
      rw [if_neg huge, Exec.bind_of_ok (Exec.get_apply s),
        Exec.bind_of_ok (u32_of_lt (by simp only [firstClusterId]; omega) s), if_pos past]
      rfl

theorem markAllocated_run (pos : 0 < size) (sound : s.fs.Sound home)
    (count : s.fs.setup.bitmap.clusterCount ≤ 2 ^ 32 - 11)
    (sectors : ∀ i < s.fs.setup.bitmap.numSectors, s.fs.setup.bitmap.firstSector + i < 2 ^ 32 ∧
      home (s.fs.setup.bitmap.firstSector + i) = .bitmap) (allocated : Bool) (some_ : run.clusterCount ≠ 0)
    (inside : Marks size s.fs.setup run) :
    ∃ fs', markAllocated run allocated s =
      (.ok (), ⟨fs', (bitmapRunChunks size run.firstCluster run.clusterCount).foldl (fun t chunk =>
        t.insert ⟨.bitmap, s.fs.setup.bitmap.firstSector + chunk.sector⟩) s.touched⟩) ∧
      fs'.Sound home ∧ fs'.volume home = (s.fs.volume home).mark run allocated := by
  have low := inside.low
  have heap := inside.heap
  have last : (BitmapPos.of size (run.firstCluster + (run.clusterCount - 1))).sector <
      s.fs.setup.bitmap.numSectors := by
    rw [sector_lt_iff pos (by omega)]
    have covered := inside.sectors
    omega
  have chunks : ∀ chunk ∈ bitmapRunChunks size run.firstCluster run.clusterCount, chunk.sector <
    s.fs.setup.bitmap.numSectors :=
    fun chunk member => mem_chunks pos _ member low inside.sectors
  obtain ⟨fs', marks, sound', shown'⟩ :=
    markChunks_run allocated (bitmapRunChunks size run.firstCluster run.clusterCount) sound rfl
    fun chunk member => sectors _ (chunks chunk member)
  refine ⟨fs', ?_, sound', shown'⟩
  have bitmap : s.fs.setup.bitmap = s.fs.allocator.bitmap := rfl
  rw [bitmap] at last heap count
  rw [markAllocated, if_neg some_, if_neg (by simp only [firstClusterId]; omega)]
  dsimp only
  rw [if_neg (by omega), Exec.bind_of_ok (Exec.get_apply s),
    Exec.bind_of_ok (u32_of_lt (by simp only [firstClusterId]; omega) s),
    if_neg (by simp only [firstClusterId]; omega)]
  exact marks

/-- What marking a run has done to a session. -/
structure Marked (home : Nat → CacheKind) (run : AllocatedRun) (allocated : Bool) (s s' : Session size n) : Prop where
  sound : s'.fs.Sound home
  setup : s'.fs.setup = s.fs.setup
  bits : ∀ i < s.fs.setup.bitmap.numSectors, ∀ j < size * 8,
    freeInBlock ((s'.fs.volume home).sectors (s.fs.setup.bitmap.firstSector + i)) j =
      if run.Has (2 + i * (size * 8) + j) then !allocated
      else freeInBlock ((s.fs.volume home).sectors (s.fs.setup.bitmap.firstSector + i)) j
  others : ∀ t, (∀ i < s.fs.setup.bitmap.numSectors, t ≠ s.fs.setup.bitmap.firstSector + i) →
    (s'.fs.volume home).sectors t = (s.fs.volume home).sectors t
  recorded : ∀ t, (s'.fs.volume home).sectors t ≠ (s.fs.volume home).sectors t → s'.touched.Records t

/-- `mark_allocated` refuses a run that is not empty and not inside the heap and the bitmap
sectors, and changes nothing. Any other run it marks, exactly its bits, and records every sector
it has changed. -/
theorem markAllocated_exact (pos : 0 < size) (sound : s.fs.Sound home)
    (count : s.fs.setup.bitmap.clusterCount ≤ 2 ^ 32 - 11)
    (sectors : ∀ i < s.fs.setup.bitmap.numSectors, s.fs.setup.bitmap.firstSector + i < 2 ^ 32 ∧
      home (s.fs.setup.bitmap.firstSector + i) = .bitmap) (run : AllocatedRun) (allocated : Bool) :
    if run.clusterCount ≠ 0 ∧ ¬ Marks size s.fs.setup run then
      markAllocated run allocated s = (.error (.error (.invalidClusterId run.firstCluster)), s)
    else ∃ s', markAllocated run allocated s = (.ok (), s') ∧ Marked home run allocated s s' := by
  by_cases refused : run.clusterCount ≠ 0 ∧ ¬ Marks size s.fs.setup run
  · rw [if_pos refused]
    exact markAllocated_refuses pos count allocated refused.1 refused.2
  · rw [if_neg refused]
    by_cases none_ : run.clusterCount = 0
    · refine ⟨s, ?_, sound, rfl, fun i _ j _ => ?_, fun _ _ => rfl, fun t changed => absurd rfl changed⟩
      · rw [markAllocated, if_pos none_]
        rfl
      · rw [if_neg]
        rintro ⟨start, stop⟩
        omega
    · have inside := not_not.mp fun outside => refused ⟨none_, outside⟩
      obtain ⟨fs', marks, sound', shown'⟩ := markAllocated_run pos sound count sectors allocated none_ inside
      have setup : fs'.setup = s.fs.setup := (congrArg Volume.setup shown').trans (Volume.mark_setup _ _ _)
      refine ⟨_, marks, sound', setup, fun i within j small => ?_, fun t apart => ?_, fun t changed => ?_⟩
      · -- the bit of a cluster
        have bit : ∀ v : Volume size, v.isFreeCluster (BitmapPos.firstClusterOf size i + j) =
            freeInBlock (v.sectors (v.setup.bitmap.firstSector + i)) j := fun v => v.isFreeCluster_of_sector pos small
        have cluster : BitmapPos.firstClusterOf size i + j = 2 + i * (size * 8) + j := by
          simp only [BitmapPos.firstClusterOf, BitmapPos.cluster, BitmapPos.clustersPerSector, firstClusterId]
          omega
        have marked :=
          (s.fs.volume home).isFreeCluster_mark pos inside.low allocated
          (show 2 ≤ BitmapPos.firstClusterOf size i + j by omega)
        rw [bit, bit, Volume.mark_setup, cluster] at marked
        rw [shown']
        exact marked
      · rw [shown', Volume.mark, Volume.foldl_markChunk_ne]
        exact fun chunk member => apart _ (mem_chunks pos _ member inside.low inside.sectors)
      · refine FileDirty.records_foldl _ _ (Or.inr ?_)
        by_contra none_
        refine changed ?_
        rw [shown', Volume.mark, Volume.foldl_markChunk_ne]
        intro chunk member same
        exact none_ ⟨chunk, member, same.symm⟩

theorem markAllocated_exact_eight : ∃ s', markAllocated ⟨3, 2⟩ true eightClusters = (.ok (), s') ∧
    Marked eightHome ⟨3, 2⟩ true eightClusters s' := by
  have exact_ :=
    markAllocated_exact (by decide) eightClusters_sound (by decide) eightClusters_layout.sectors ⟨3, 2⟩ true
  rwa [if_neg (by decide)] at exact_

end Allocator

end ExFatSlim
