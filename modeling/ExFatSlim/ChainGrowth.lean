import ExFatSlim.WriteSplice

namespace ExFatSlim

namespace Volume

variable {size : Nat} {v : Volume size} {cs : List Nat}

/-- A chain that comes to an end passes through no cluster twice. -/
theorem Threads.distinct (threads : v.Threads cs) : cs.Nodup := by
  rw [List.nodup_iff_getElem?_ne_getElem?]
  intro i j before inside same
  -- from two equal clusters on the chain goes the same way
  have along : ∀ m, j + m < cs.length → cs[i + m]? = cs[j + m]? := by
    intro m
    induction m with
    | zero => exact fun _ => same
    | succ m ih =>
      intro within
      have here := ih (by omega)
      have last := List.getElem?_eq_getElem (show j + m < cs.length by omega)
      have one := threads.next_eq (here.trans last)
      have two := threads.next_eq last
      exact one.symm.trans two
  obtain ⟨m, length⟩ : ∃ m, cs.length = j + m + 1 := ⟨cs.length - j - 1, by omega⟩
  have here := along m (by omega)
  have last := List.getElem?_eq_getElem (show j + m < cs.length by omega)
  have one := threads.next_eq (here.trans last)
  have two := threads.next_eq last
  have past : cs[j + m + 1]? = none := List.getElem?_eq_none (by omega)
  have more := List.getElem?_eq_getElem (show i + m + 1 < cs.length by omega)
  have clash := more.symm.trans (one.symm.trans (two.trans past))
  cases clash

theorem Represents.distinct {noFatChain : Bool} {chain : StoredChain}
    (represents : v.Represents noFatChain chain cs) : cs.Nodup := by
  cases flag : noFatChain with
  | false => exact (represents.threads flag).distinct
  | true =>
    have lists := represents.lists
    cases form : chain with
    | empty =>
      rw [form] at lists
      rw [show cs = [] from lists]
      exact .nil
    | contiguous first clusterCount =>
      rw [form] at lists
      rw [lists.2]
      exact List.nodup_range'
    | fat first last clusterCount =>
      have stored := represents.stored first last clusterCount form
      rw [flag] at stored
      cases stored

/-- With the NoFatChain flag the clusters are consecutive. -/
theorem Represents.consecutive {chain : StoredChain} (represents : v.Represents true chain cs) :
    ∀ first ∈ cs.head?, cs = List.range' first cs.length := by
  intro first head
  have lists := represents.lists
  cases form : chain with
  | empty =>
    rw [form] at lists
    rw [show cs = [] from lists] at head
    cases head
  | contiguous start clusterCount =>
    rw [form] at lists
    obtain ⟨some_, rfl⟩ := lists
    obtain ⟨k, rfl⟩ : ∃ k, clusterCount = k + 1 := ⟨clusterCount - 1, by omega⟩
    rw [List.range'_succ] at head
    rw [List.length_range', Option.some.inj head]
  | fat start last clusterCount => cases represents.stored start last clusterCount form

end Volume

namespace File

variable {size n : Nat} {home : Nat → CacheKind} {s : FileSession size n} {cs : List Nat} {run : AllocatedRun}

/-- A chain grows by the clusters of a run, whatever its form is. -/
theorem updateChain_represents (sound : s.fs.Sound home) (layout : Layout size home s.fs.setup)
    (represents : (s.fs.volume home).Represents s.file.details.flags.noFatChain s.file.chain cs)
    (inHeap : ∀ c ∈ cs, (s.fs.volume home).InHeap c) (pos : 0 < run.clusterCount)
    (added : ∀ c ∈ run.clusters, (s.fs.volume home).InHeap c) (disjoint : ∀ c ∈ run.clusters, c ∉ cs) :
    ∃ s', updateChain run s = (.ok (), s') ∧ s'.fs.Sound home ∧
      (s'.fs.volume home).Represents s'.file.details.flags.noFatChain s'.file.chain (cs ++ run.clusters) ∧
      (s'.file.details.flags.noFatChain = true → s.file.details.flags.noFatChain = true ∧
        ∀ first ∈ (cs ++ run.clusters).head?, cs ++ run.clusters = List.range' first (cs ++ run.clusters).length) ∧
      ∀ c, c ∉ cs ++ run.clusters → (s'.fs.volume home).fatEntry c = (s.fs.volume home).fatEntry c := by
  have whole : (cs ++ run.clusters).Nodup := by
    refine List.nodup_append.mpr ⟨represents.distinct, List.nodup_range', ?_⟩
    rintro c mine d theirs rfl
    exact disjoint c theirs mine
  have inside : ∀ c ∈ cs ++ run.clusters, (s.fs.volume home).InHeap c := fun c member =>
    (List.mem_append.mp member).elim (inHeap c) (added c)
  obtain ⟨v', f', ⟨s', run', sound', shown'⟩, relinked, grown, kept, _⟩ :=
    updateChain_relinks sound layout represents pos whole inside
  have volume := (Prod.mk.inj shown').1
  have bare : s'.file.bare = f' := (Prod.mk.inj shown').2
  have flags : s'.file.details.flags = f'.details.flags := by rw [← bare]; rfl
  have chain : s'.file.chain = f'.chain := by rw [← bare]; rfl
  rw [← flags, ← chain, ← volume] at grown
  rw [← flags] at kept
  refine ⟨s', run', sound', grown, fun set => ⟨kept set, ?_⟩, fun c outside => ?_⟩
  · rw [set] at grown
    exact grown.consecutive
  · rw [volume]
    exact relinked.entries c outside

/-- The cluster 2 and then 4 and 5: the file is converted to a FAT chain. -/
theorem updateChain_represents_apart : (let file := { emptyFile with chain := .contiguous 2 1 }
    ∃ s', updateChain ⟨4, 2⟩ (⟨smallVolume, file⟩ : FileSession 512 1) = (.ok (), s') ∧ s'.fs.Sound smallHome ∧
      (s'.fs.volume smallHome).Represents s'.file.details.flags.noFatChain s'.file.chain [2, 4, 5] ∧
      (s'.file.details.flags.noFatChain = true → true = true ∧ ∀ first ∈ some 2, [2, 4, 5] = List.range' first 3) ∧
      ∀ c, c ∉ [2, 4, 5] → (s'.fs.volume smallHome).fatEntry c = (smallVolume.volume smallHome).fatEntry c) := by
  have sound : smallVolume.Sound smallHome := FileSystem.sound_of_new _ rfl fun k => by cases k <;> rfl
  have represents : (smallVolume.volume smallHome).Represents true (.contiguous 2 1) [2] :=
    ⟨⟨by decide, rfl⟩, fun clear => (by cases clear), fun _ _ _ stored => (by cases stored)⟩
  have inHeap : ∀ c ∈ [2, 4, 5], (smallVolume.volume smallHome).InHeap c := by
    intro c member
    have high : 2 ≤ c ∧ c < 10 := by
      simp only [List.mem_cons, List.not_mem_nil, or_false] at member
      omega
    exact high
  have old : ∀ c ∈ [2], (smallVolume.volume smallHome).InHeap c :=
    fun c member => inHeap c (List.mem_cons.mpr (Or.inl (List.mem_singleton.mp member)))
  have added : ∀ c ∈ (AllocatedRun.mk 4 2).clusters, (smallVolume.volume smallHome).InHeap c := fun c member =>
    inHeap c (List.mem_cons_of_mem _ member)
  exact updateChain_represents (s := ⟨smallVolume, { emptyFile with chain := .contiguous 2 1 }⟩) sound
    smallVolume_layout represents old
    (by decide) added (by decide)

end File

end ExFatSlim
