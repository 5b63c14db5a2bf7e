import ExFatSlim.Chain

namespace ExFatSlim

namespace Volume

variable {size : Nat} {home : Nat → CacheKind} {v v' v'' : Volume size} {cs added more : List Nat}

theorem foldl_markChunk_others (layout : BitmapLayout size home v.setup) (allocated : Bool)
    (chunks : List BitmapChunk) (inside : ∀ chunk ∈ chunks, chunk.sector < v.setup.bitmap.numSectors) {s : Nat}
    (foreign : home s ≠ .bitmap) : (chunks.foldl (markChunk allocated) v).sectors s = v.sectors s := by
  refine foldl_markChunk_ne allocated chunks fun chunk member => ?_
  rintro rfl
  exact foreign (layout.sectors _ (inside chunk member)).2

/-- Marking a run changes nothing but the bitmap. -/
theorem mark_others (layout : BitmapLayout size home v.setup) {run : AllocatedRun} (low : 2 ≤ run.firstCluster)
    (high : run.firstCluster + run.clusterCount ≤ v.endCluster) (allocated : Bool) {s : Nat}
    (foreign : home s ≠ .bitmap) : (v.mark run allocated).sectors s = v.sectors s := by
  refine foldl_markChunk_others layout allocated _ (fun chunk member => ?_) foreign
  have covers := layout.covers
  rw [endCluster] at high
  exact Allocator.mem_chunks layout.pos _ member low (by omega)

theorem fatEntry_grant (layout : Layout size home v.setup) {run : AllocatedRun} (low : 2 ≤ run.firstCluster)
    (high : run.firstCluster + run.clusterCount ≤ v.endCluster) (start : Nat) {c : Nat} (inHeap : v.InHeap c) :
    ((v.searchAt start).mark run true).fatEntry c = v.fatEntry c := by
  have bitmap : BitmapLayout size home (v.searchAt start).setup := layout.toBitmapLayout.of_bitmap rfl
  have sector : ((v.searchAt start).mark run true).fatSector c = v.fatSector c := by
    rw [fatSector, mark_setup]
    rfl
  rw [fatEntry, fatEntry, sector, mark_others bitmap low high true (by simp [layout.fatSector_home inHeap])]
  rfl

theorem isFree_grant (pos : 0 < size) {run : AllocatedRun} (low : 2 ≤ run.firstCluster) (start : Nat) {c : Nat}
    (inHeap : v.InHeap c) : ((v.searchAt start).mark run true).IsFree c ↔ v.IsFree c ∧ ¬ run.Has c := by
  rw [IsFree, isFreeCluster_mark pos _ low true inHeap.1]
  change ((if run.Has c then !true else v.isFreeCluster c) = true) ↔ _
  by_cases has : run.Has c
  · simp [has]
  · simp [has, IsFree]

/-- The bits of other clusters make no difference to a chain. -/
theorem Owns.granted {noFatChain : Bool} {chain : StoredChain} (owns : v.Owns home noFatChain chain cs)
    (layout : Layout size home v.setup) {run : AllocatedRun} (low : 2 ≤ run.firstCluster)
    (high : run.firstCluster + run.clusterCount ≤ v.endCluster) (start : Nat) :
    ((v.searchAt start).mark run true).Owns home noFatChain chain cs := by
  have setup : ((v.searchAt start).mark run true).setup = { v.setup with nextSearchCluster := start } :=
    mark_setup _ _ _
  have same : ∀ c ∈ cs, ((v.searchAt start).mark run true).next c = v.next c := fun c member =>
    next_of_fatEntry (fatEntry_grant layout low high start (owns.inHeap c member))
  refine ⟨owns.lists, fun noFat => ⟨?_, fun c atEnd => ?_⟩, owns.stored, owns.distinct, fun c member => ?_,
    fun c member free => ?_, fun c member => ?_⟩
  · exact (owns.threads noFat).linked.of_same fun c member => same c (List.dropLast_subset _ member)
  · rw [same c (List.mem_of_getLast? atEnd)]
    exact (owns.threads noFat).ended c atEnd
  · rw [InHeap, endCluster, setup]
    exact owns.inHeap c member
  · exact owns.used c member ((isFree_grant layout.pos low start (owns.inHeap c member)).mp free).1
  · rw [IsData, setup]
    simp only [dataSector, setup]
    exact owns.data c member

/-- A later volume in which the chain of clusters `cs` has grown by the
clusters `added`: these were free, the FAT differs in entries of the chain at
most, and nothing else has changed. -/
structure Extended (home : Nat → CacheKind) (cs added : List Nat) (v v' : Volume size) : Prop where
  setup : v'.setup = { v.setup with nextSearchCluster := v'.setup.nextSearchCluster }
  search : 2 ≤ v.setup.nextSearchCluster → 2 ≤ v'.setup.nextSearchCluster
  free : ∀ c, v.InHeap c → (v'.IsFree c ↔ v.IsFree c ∧ c ∉ added)
  wasFree : ∀ c ∈ added, v.InHeap c ∧ v.IsFree c
  data : ∀ s, home s = .data → v'.sectors s = v.sectors s
  entries : ∀ c, v.InHeap c → c ∉ cs ++ added → v'.fatEntry c = v.fatEntry c

theorem Extended.refl (v : Volume size) (cs : List Nat) : Extended home cs [] v v where
  setup := rfl
  search := id
  free c _ := by simp
  wasFree c member := by simp at member
  data _ _ := rfl
  entries _ _ _ := rfl

theorem Extended.inHeap (extended : Extended home cs added v v') {c : Nat} : v'.InHeap c ↔ v.InHeap c := by
  rw [InHeap, InHeap, endCluster, endCluster, extended.setup]

theorem Extended.isData (extended : Extended home cs added v v') {c : Nat} :
    v'.IsData home c ↔ v.IsData home c := by
  have details : v'.setup.details = v.setup.details := by rw [extended.setup]
  simp only [IsData, dataSector, details]

theorem Extended.layout (extended : Extended home cs added v v') (layout : Layout size home v.setup) :
    Layout size home v'.setup := by
  rw [extended.setup]
  exact layout.of_same rfl rfl rfl rfl

theorem Extended.trans (first : Extended home cs added v v') (second : Extended home (cs ++ added) more v' v'') :
    Extended home cs (added ++ more) v v'' where
  setup := by
    rw [second.setup, first.setup]
  search low := second.search (first.search low)
  free c inHeap := by
    rw [second.free c (first.inHeap.mpr inHeap), first.free c inHeap, List.mem_append, not_or, and_assoc]
  wasFree c member := by
    rcases List.mem_append.mp member with early | late
    · exact first.wasFree c early
    · obtain ⟨inHeap, free⟩ := second.wasFree c late
      exact ⟨first.inHeap.mp inHeap, ((first.free c (first.inHeap.mp inHeap)).mp free).1⟩
  data s here := (second.data s here).trans (first.data s here)
  entries c inHeap outside := by
    rw [← List.append_assoc] at outside
    exact (second.entries c (first.inHeap.mpr inHeap) outside).trans
      (first.entries c inHeap fun member => outside (List.mem_append_left _ member))

/-- What allocating a run and relinking the chain make of a volume. -/
theorem extended_of_grant (layout : Layout size home v.setup) {run : AllocatedRun}
    (low : 2 ≤ run.firstCluster) (high : run.firstCluster + run.clusterCount ≤ v.endCluster)
    (free : ∀ c, run.Has c → v.IsFree c)
    (relinked : Relinked home (cs ++ run.clusters)
      ((v.searchAt (run.firstCluster + run.clusterCount)).mark run true) v') :
    Extended home cs run.clusters v v' := by
  have bitmap : BitmapLayout size home (v.searchAt (run.firstCluster + run.clusterCount)).setup :=
    layout.toBitmapLayout.of_bitmap rfl
  have setup : v'.setup = { v.setup with nextSearchCluster := run.firstCluster + run.clusterCount } :=
    relinked.setup.trans (mark_setup _ _ _)
  have others : ∀ s, home s ≠ .bitmap →
      ((v.searchAt (run.firstCluster + run.clusterCount)).mark run true).sectors s = v.sectors s :=
    fun s foreign => mark_others bitmap low high true foreign
  refine ⟨?_, fun _ => ?_, fun c inHeap => ?_, fun c member => ?_, fun s here => ?_, fun c inHeap outside => ?_⟩
  · rw [setup]
  · rw [setup]
    exact low.trans (Nat.le_add_right _ _)
  · rw [relinked.isFree (by rwa [mark_setup]) (by rwa [InHeap, endCluster, mark_setup]),
      isFree_grant layout.pos low _ inHeap, AllocatedRun.mem_clusters]
  · have has := AllocatedRun.mem_clusters.mp member
    exact ⟨⟨low.trans has.1, lt_of_lt_of_le has.2 high⟩, free c has⟩
  · rw [relinked.others s (by simp [here]), others s (by simp [here])]
  · exact (relinked.entries c outside).trans (fatEntry_grant layout low high _ inHeap)

end Volume

namespace File

variable {size n : Nat} {home : Nat → CacheKind}

theorem Grown.trans {clusterLength a b : Nat} {file file' file'' : File} (first : Grown clusterLength a file file')
    (second : Grown clusterLength b file' file'') : Grown clusterLength a file file'' where
  details := by rw [second.details, first.details]
  cursor := second.cursor.trans first.cursor
  options := second.options.trans first.options
  grown := second.grown
  start empty := by
    obtain ⟨cluster, remaining⟩ := second.place first.grown
    rw [cluster, remaining]
    exact first.start empty
  place nonempty := by
    obtain ⟨cluster, remaining⟩ := second.place first.grown
    rw [cluster, remaining]
    exact first.place nonempty

/-- A handle whose chain has grown by the clusters `added`, which may be none. -/
def Extended (clusterLength : Nat) (added : List Nat) (file file' : File) : Prop :=
  (added = [] ∧ file'.bare = file.bare) ∨ ∃ first, added.head? = some first ∧ Grown clusterLength first file file'

/-- The touched sets make no difference. -/
theorem Grown.of_bare {clusterLength a : Nat} {file file' : File}
    (grown : Grown clusterLength a file.bare file'.bare) : Grown clusterLength a file file' :=
  ⟨grown.details, grown.cursor, grown.options, grown.grown, grown.start, grown.place⟩

theorem Grown.bare {clusterLength a : Nat} {file file' : File} (grown : Grown clusterLength a file file') :
    Grown clusterLength a file.bare file'.bare :=
  ⟨grown.details, grown.cursor, grown.options, grown.grown, grown.start, grown.place⟩

theorem Grown.then {clusterLength a : Nat} {added : List Nat} {file file' file'' : File}
    (first : Grown clusterLength a file file') (second : Extended clusterLength added file' file'') :
    Grown clusterLength a file file'' := by
  rcases second with ⟨_, same⟩ | ⟨b, _, grown⟩
  · refine .of_bare ?_
    rw [same]
    exact first.bare
  · exact first.trans grown

end File

namespace FileSession

variable {size n : Nat} {home : Nat → CacheKind} {s : FileSession size n} {cs : List Nat}

/-- A handle on a well-formed volume, `cs` being the clusters of its chain. -/
structure Holds (home : Nat → CacheKind) (cs : List Nat) (s : FileSession size n) : Prop where
  sound : s.fs.Sound home
  layout : Layout size home s.fs.setup
  search : 2 ≤ s.fs.setup.nextSearchCluster
  room : ∀ c, (s.fs.volume home).InHeap c → (s.fs.volume home).IsFree c → (s.fs.volume home).IsData home c
  owns : (s.fs.volume home).Owns home s.file.details.flags.noFatChain s.file.chain cs

theorem Holds.low (holds : Holds home cs s) :
    2 ≤ (Allocator.hintOf s.file.chain).getD s.fs.setup.nextSearchCluster := by
  have lists := holds.owns.lists
  have inHeap := holds.owns.inHeap
  cases chain : s.file.chain with
  | empty => exact holds.search
  | contiguous first clusterCount =>
    rw [chain] at lists
    obtain ⟨pos, rfl⟩ := lists
    have low := (inHeap first (by rw [List.mem_range'_1]; omega)).1
    exact low.trans (Nat.le_add_right _ _)
  | fat first last clusterCount =>
    rw [chain] at lists
    have low := (inHeap last (List.mem_of_getLast? lists.2.1)).1
    exact low.trans (Nat.le_succ _)

theorem Holds.bound (holds : Holds home cs s) {hint : Nat} (hinted : Allocator.hintOf s.file.chain = some hint) :
    hint < 2 ^ 32 := by
  have lists := holds.owns.lists
  have inHeap := holds.owns.inHeap
  have ids := holds.layout.ids
  simp only [Fat.clusterLen] at ids
  cases chain : s.file.chain with
  | empty =>
    rw [chain] at hinted
    cases hinted
  | contiguous first clusterCount =>
    rw [chain] at lists hinted
    obtain ⟨pos, rfl⟩ := lists
    cases hinted
    have high : first + clusterCount - 1 < 2 + s.fs.setup.bitmap.clusterCount :=
      (inHeap _ (by rw [List.mem_range'_1]; omega)).2
    omega
  | fat first last clusterCount =>
    rw [chain] at lists hinted
    cases hinted
    have high : last < 2 + s.fs.setup.bitmap.clusterCount := (inHeap last (List.mem_of_getLast? lists.2.1)).2
    omega

theorem Holds.allocate (holds : Holds home cs s) {count : Nat} (wanted : 0 < count) :
    (∃ run s₁ s', onSession (Allocator.allocate s.file.chain count) s = (.ok run, s₁) ∧
      File.updateChain run s₁ = (.ok (), s') ∧ Holds home (cs ++ run.clusters) s' ∧
      Volume.Extended home cs run.clusters (s.fs.volume home) (s'.fs.volume home) ∧
      File.Grown s.fs.fs.clusterLength run.firstCluster s.file s'.file ∧
      0 < run.clusterCount ∧ run.clusterCount ≤ count ∧
      ∀ hint, Allocator.hintOf s.file.chain = some hint → (s.fs.volume home).InHeap hint →
        (s.fs.volume home).IsFree hint → run.firstCluster = hint) ∨
    (∃ s', onSession (Allocator.allocate s.file.chain count) s = (.error (.error .diskFull), s') ∧
      s'.fs.Sound home ∧ s'.fs.volume home = s.fs.volume home ∧ s'.file.bare = s.file.bare ∧
      ∀ c, (s.fs.volume home).InHeap c → ¬ (s.fs.volume home).IsFree c) := by
  obtain ⟨r, v, leads, result⟩ := Allocator.allocate_leads (s := ⟨s.fs, s.file.touched⟩) holds.sound
    holds.layout.toBitmapLayout wanted holds.low fun hint => holds.bound
  obtain ⟨s₁, run₁, sound₁, shown₁⟩ := leads_onSession leads
  have volume₁ : s₁.fs.volume home = v := (Prod.mk.inj shown₁).1
  have file₁ : s₁.file.bare = s.file.bare := (Prod.mk.inj shown₁).2
  rcases result with ⟨run, rfl, rfl, grants⟩ | ⟨rfl, rfl, none⟩
  · refine Or.inl ⟨run, s₁, ?_⟩
    have setup₁ : s₁.fs.setup = { s.fs.setup with nextSearchCluster := run.firstCluster + run.clusterCount } :=
      (congrArg Volume.setup volume₁).trans (Volume.mark_setup _ _ _)
    have layout₁ : Layout size home s₁.fs.setup := by
      rw [setup₁]
      exact holds.layout.of_same rfl rfl rfl rfl
    have length₁ : s₁.fs.fs.clusterLength = s.fs.fs.clusterLength :=
      congrArg (fun u : Setup => u.details.clusterLength) setup₁
    have flag₁ : s₁.file.bare.details.flags.noFatChain = s.file.bare.details.flags.noFatChain := by rw [file₁]
    have chain₁ : s₁.file.bare.chain = s.file.bare.chain := by rw [file₁]
    have owns₁ : (s₁.fs.volume home).Owns home s₁.file.details.flags.noFatChain s₁.file.chain cs := by
      have granted := holds.owns.granted holds.layout grants.low grants.high
        (run.firstCluster + run.clusterCount)
      rw [volume₁]
      exact chain₁ ▸ flag₁ ▸ granted
    have fresh : File.Fresh home (s₁.fs.volume home) cs run := by
      intro c has
      have inHeap : (s.fs.volume home).InHeap c := ⟨grants.low.trans has.1, lt_of_lt_of_le has.2 grants.high⟩
      have free := grants.free c has
      rw [volume₁, Volume.isFree_grant holds.layout.pos grants.low _ inHeap]
      refine ⟨?_, fun still => still.2 has, ?_, fun member => holds.owns.used c member free⟩
      · rw [Volume.InHeap, Volume.endCluster, Volume.mark_setup]
        exact inHeap
      · simp only [Volume.IsData, Volume.dataSector, Volume.mark_setup]
        exact holds.room c inHeap free
    obtain ⟨v', f', leads', relinked, owns', grown⟩ := File.updateChain_leads sound₁ layout₁ owns₁ grants.pos fresh
    obtain ⟨s', run', sound', shown'⟩ := leads'
    obtain ⟨volume', file'⟩ := Prod.mk.inj shown'
    subst volume' file'
    rw [volume₁] at relinked
    have extended := Volume.extended_of_grant holds.layout grants.low grants.high grants.free relinked
    rw [length₁] at grown
    refine ⟨s', run₁, run', ⟨sound', extended.layout holds.layout, extended.search holds.search,
      fun c inHeap free => ?_, owns'⟩, extended, ?_, grants.pos, grants.few, fun hint hinted inHeap free => ?_⟩
    · have inHeap := extended.inHeap.mp inHeap
      exact extended.isData.mpr (holds.room c inHeap ((extended.free c inHeap).mp free).1)
    · refine .of_bare ?_
      rw [← file₁]
      exact grown.bare
    · have near := grants.near
      rw [hinted] at near
      refine near ?_ inHeap free
      cases chain : s.file.chain with
      | empty =>
        rw [chain] at hinted
        cases hinted
      | contiguous first clusterCount => rfl
      | fat first last clusterCount => rfl
  · exact Or.inr ⟨s₁, run₁, sound₁, volume₁, file₁, none⟩

/-- A failed search leaves the handle as it was. -/
theorem Holds.of_same {s' : FileSession size n} (holds : Holds home cs s) (sound : s'.fs.Sound home)
    (volume : s'.fs.volume home = s.fs.volume home) (file : s'.file.bare = s.file.bare) : Holds home cs s' := by
  have setup : s'.fs.setup = s.fs.setup := congrArg Volume.setup volume
  have flag : s'.file.bare.details.flags.noFatChain = s.file.bare.details.flags.noFatChain := by rw [file]
  have chain : s'.file.bare.chain = s.file.bare.chain := by rw [file]
  refine ⟨sound, setup ▸ holds.layout, setup ▸ holds.search, ?_, ?_⟩
  · rw [volume]
    exact holds.room
  · rw [volume]
    exact chain ▸ flag ▸ holds.owns

/-- What `allocate_clusters_for` ends with: a chain grown by `count` clusters,
or by fewer and a full disk. A free cluster right after the chain comes first. -/
structure Grew (home : Nat → CacheKind) (cs added : List Nat) (count : Nat) (s : FileSession size n)
    (r : Except (Fault ExFatError) Unit) (s' : FileSession size n) : Prop where
  holds : Holds home (cs ++ added) s'
  volume : Volume.Extended home cs added (s.fs.volume home) (s'.fs.volume home)
  file : File.Extended s.fs.fs.clusterLength added s.file s'.file
  outcome : (r = .ok () ∧ added.length = count) ∨
    (r = .error (.error .diskFull) ∧ added.length < count ∧
      ∀ c, (s'.fs.volume home).InHeap c → ¬ (s'.fs.volume home).IsFree c)
  near : ∀ hint, Allocator.hintOf s.file.chain = some hint → (s.fs.volume home).InHeap hint →
    (s.fs.volume home).IsFree hint → added.head? = some hint

theorem allocateRuns_spec (rounds : Nat) : ∀ {s : FileSession size n} {cs : List Nat} {count : Nat},
    Holds home cs s → 0 < count → count ≤ rounds →
    ∃ r s' added, File.allocateRuns rounds count s = (r, s') ∧ Grew home cs added count s r s' := by
  induction rounds with
  | zero => intro s cs count _ wanted few; omega
  | succ rounds ih =>
    intro s cs count holds wanted few
    rcases holds.allocate wanted with ⟨run, s₁, s₂, run₁, run₂, holds₂, extended, grown, pos, atMost, near⟩ |
      ⟨s₁, run₁, sound₁, volume₁, file₁, none⟩
    · have opened : File.allocateRuns (rounds + 1) count s =
          (if count - run.clusterCount = 0 then pure ()
            else File.allocateRuns rounds (count - run.clusterCount) : ExFat (FileSession size n) Unit) s₂ := by
        rw [File.allocateRuns, Exec.bind_of_ok (Exec.get_apply s), Exec.bind_of_ok run₁, Exec.bind_of_ok run₂,
          Exec.bind_of_ok (minus_of_le atMost s₂)]
      have length : run.clusters.length = run.clusterCount := List.length_range'
      have head : run.clusters.head? = some run.firstCluster := by
        simp [AllocatedRun.clusters, List.head?_range', show run.clusterCount ≠ 0 by omega]
      rw [opened]
      by_cases enough : count - run.clusterCount = 0
      · rw [if_pos enough]
        refine ⟨.ok (), s₂, run.clusters, rfl, holds₂, extended, Or.inr ⟨_, head, grown⟩, Or.inl ⟨rfl, by omega⟩, ?_⟩
        intro hint hinted inHeap free
        rw [head, near hint hinted inHeap free]
      · rw [if_neg enough]
        have length₂ : s₂.fs.fs.clusterLength = s.fs.fs.clusterLength := by
          have setup := extended.setup
          exact congrArg (fun u : Setup => u.details.clusterLength) setup
        obtain ⟨r, s₃, more, run₃, grew⟩ := ih holds₂ (by omega : 0 < count - run.clusterCount) (by omega)
        refine ⟨r, s₃, run.clusters ++ more, run₃, ?_, extended.trans grew.volume, ?_, ?_, ?_⟩
        · rw [← List.append_assoc]
          exact grew.holds
        · have file := grew.file
          rw [length₂] at file
          exact Or.inr ⟨run.firstCluster, by rw [List.head?_append, head, Option.some_or], grown.then file⟩
        · rcases grew.outcome with ⟨ok, all⟩ | ⟨full, some_, none⟩
          · exact Or.inl ⟨ok, by rw [List.length_append]; omega⟩
          · exact Or.inr ⟨full, by rw [List.length_append]; omega, none⟩
        · intro hint hinted inHeap free
          rw [List.head?_append, head, Option.some_or, near hint hinted inHeap free]
    · refine ⟨_, s₁, [], ?_, ?_, ?_, Or.inl ⟨rfl, file₁⟩, Or.inr ⟨rfl, wanted, ?_⟩, ?_⟩
      · rw [File.allocateRuns, Exec.bind_of_ok (Exec.get_apply s), Exec.bind_of_error run₁]
      · rw [List.append_nil]
        exact holds.of_same sound₁ volume₁ file₁
      · rw [volume₁]
        exact .refl _ _
      · rw [volume₁]
        exact none
      · intro hint _ inHeap free
        exact absurd free (none hint inHeap)

end FileSession

end ExFatSlim
