import ExFatSlim.FatTable
import ExFatSlim.File
import Mathlib.Data.List.Chain
import Mathlib.Order.Interval.Finset.Nat

namespace ExFatSlim

/-- The clusters of a run in order. -/
def AllocatedRun.clusters (run : AllocatedRun) : List Nat := List.range' run.firstCluster run.clusterCount

theorem AllocatedRun.mem_clusters {run : AllocatedRun} {c : Nat} : c ∈ run.clusters ↔ run.Has c := by
  simp [clusters, Has, List.mem_range'_1]

/-- The clusters that a stored chain stands for. -/
def StoredChain.Lists (chain : StoredChain) (cs : List Nat) : Prop :=
  match chain with
  | .empty => cs = []
  | .contiguous first clusterCount => 0 < clusterCount ∧ cs = List.range' first clusterCount
  | .fat first last clusterCount =>
    cs.head? = some first ∧ cs.getLast? = some last ∧ cs.length = clusterCount

namespace Volume

variable {size : Nat} {home : Nat → CacheKind} {v v' : Volume size} {cs rs : List Nat}

/-- The FAT names each cluster after the one before it. -/
def Linked (v : Volume size) (cs : List Nat) : Prop := cs.IsChain fun a b => v.next a = some b

/-- The FAT leads through the clusters and no further. -/
structure Threads (v : Volume size) (cs : List Nat) : Prop where
  linked : v.Linked cs
  ended : ∀ c, cs.getLast? = some c → v.next c = none

/-- A sector of a cluster. -/
def dataSector (v : Volume size) (c i : Nat) : Nat :=
  v.setup.details.clusterHeapOffset + (c - 2) * v.setup.details.sectorsPerCluster + i

/-- A cluster whose sectors belong to the data cache. -/
def IsData (home : Nat → CacheKind) (v : Volume size) (c : Nat) : Prop :=
  ∀ i < v.setup.details.sectorsPerCluster, home (v.dataSector c i) = .data

/-- A file's chain on a volume: `cs` are its clusters, each of them once, all
of them allocated; without the NoFatChain flag the FAT leads through them. -/
structure Owns (home : Nat → CacheKind) (v : Volume size) (noFatChain : Bool) (chain : StoredChain)
    (cs : List Nat) : Prop where
  lists : chain.Lists cs
  threads : noFatChain = false → v.Threads cs
  stored : ∀ first last clusterCount, chain = .fat first last clusterCount → noFatChain = false
  distinct : cs.Nodup
  inHeap : ∀ c ∈ cs, v.InHeap c
  used : ∀ c ∈ cs, ¬ v.IsFree c
  data : ∀ c ∈ cs, v.IsData home c

/-- A handle's chain represents a list of clusters: its form does, only without the NoFatChain
flag it is stored as a FAT chain, and without that flag the FAT leads through them and no
further. -/
structure Represents (v : Volume size) (noFatChain : Bool) (chain : StoredChain) (cs : List Nat) : Prop where
  lists : chain.Lists cs
  threads : noFatChain = false → v.Threads cs
  stored : ∀ first last clusterCount, chain = .fat first last clusterCount → noFatChain = false

theorem Linked.of_same (linked : v.Linked cs) (same : ∀ c ∈ cs.dropLast, v'.next c = v.next c) :
    v'.Linked cs := by
  induction cs with
  | nil => exact .nil
  | cons a rest ih =>
    cases rest with
    | nil => exact .singleton a
    | cons b rest =>
      rw [List.dropLast_cons_cons] at same
      obtain ⟨first, later⟩ := List.isChain_cons_cons.mp linked
      refine .cons_cons ((same a (by simp)).trans first) (ih later fun c member => same c (by simp [member]))

theorem not_mem_dropLast {last : Nat} (distinct : cs.Nodup) (final : cs.getLast? = some last) :
    last ∉ cs.dropLast := by
  obtain ⟨ds, rfl⟩ := List.getLast?_eq_some_iff.mp final
  rw [List.dropLast_concat]
  intro member
  exact (List.nodup_append.mp distinct).2.2 last member last (by simp) rfl

theorem threads_linkPath (words : 4 ∣ size) (pos : 0 < size) (distinct : cs.Nodup)
    (valid : ∀ c ∈ cs, 2 ≤ c ∧ c ≤ Fat.clusterLen) {last : Nat} (final : cs.getLast? = some last) :
    ((v.linkPath cs).link last Fat.endOfChain).Threads cs where
  linked := by
    have linked : (v.linkPath cs).Linked cs := next_linkPath words pos cs v distinct valid
    refine linked.of_same fun c member => next_of_fatEntry (fatEntry_link_ne _ ?_ _)
    rintro rfl
    exact not_mem_dropLast distinct final member
  ended c atEnd := by
    rw [final] at atEnd
    cases atEnd
    exact next_link_end words pos _ _

/-- What linking a run to the end of a chain makes of the chain. -/
theorem Linked.extend (words : 4 ∣ size) (pos : 0 < size) (linked : v.Linked cs) (distinct : (cs ++ rs).Nodup)
    (valid : ∀ c ∈ cs ++ rs, 2 ≤ c ∧ c ≤ Fat.clusterLen) {last : Nat} (final : rs.getLast? = some last) :
    ((v.linkPath (cs.getLast?.toList ++ rs)).link last Fat.endOfChain).Threads (cs ++ rs) := by
  rcases List.eq_nil_or_concat' cs with rfl | ⟨ds, p, rfl⟩
  · exact threads_linkPath words pos distinct valid final
  · have finalP : (p :: rs).getLast? = some last := by
      rw [List.getLast?_cons, final]
      rfl
    rw [List.append_assoc, List.singleton_append] at distinct valid ⊢
    rw [List.getLast?_concat, Option.toList_some, List.singleton_append]
    obtain ⟨_, distinctP, apart⟩ := List.nodup_append.mp distinct
    have tail := threads_linkPath (v := v) words pos distinctP (fun c member => valid c (by simp_all)) finalP
    refine ⟨List.isChain_split.mpr ⟨linked.of_same fun c member => ?_, tail.linked⟩, fun c atEnd => ?_⟩
    · rw [List.dropLast_concat] at member
      have lastMem : last ∈ p :: rs := List.mem_of_getLast? finalP
      refine (next_of_fatEntry (fatEntry_link_ne _ (apart c member last lastMem) _)).trans
        (next_of_fatEntry (fatEntry_linkPath _ _ fun inside => ?_))
      exact apart c member c (List.dropLast_subset _ inside) rfl
    · refine tail.ended c ?_
      rwa [List.getLast?_append, List.getLast?_cons, Option.some_or, ← List.getLast?_cons] at atEnd

end Volume

/-- The bit of a cluster of the heap is in the bitmap. -/
theorem BitmapLayout.sector_lt {size : Nat} {home : Nat → CacheKind} {v : Volume size}
    (layout : BitmapLayout size home v.setup) {c : Nat} (inHeap : v.InHeap c) :
    (BitmapPos.of size c).sector < v.setup.bitmap.numSectors := by
  have pos := layout.pos
  have low := inHeap.1
  have high : c < 2 + v.setup.bitmap.clusterCount := inHeap.2
  have covers := layout.covers
  rw [BitmapPos.of]
  refine (Nat.div_lt_iff_lt_mul (by simp only [BitmapPos.clustersPerSector]; omega)).mpr ?_
  simp only [firstClusterId, BitmapPos.clustersPerSector]
  omega

namespace Volume

variable {size : Nat} {home : Nat → CacheKind} {v v' : Volume size} {cs : List Nat}

theorem Relinked.inHeap (relinked : Relinked home cs v v') {c : Nat} : v'.InHeap c ↔ v.InHeap c := by
  rw [InHeap, InHeap, endCluster, endCluster, relinked.setup]

theorem Relinked.isData (relinked : Relinked home cs v v') {c : Nat} : v'.IsData home c ↔ v.IsData home c := by
  simp only [IsData, dataSector, relinked.setup]

/-- The bitmap is not in the FAT. -/
theorem Relinked.isFree (relinked : Relinked home cs v v') (layout : BitmapLayout size home v.setup) {c : Nat}
    (inHeap : v.InHeap c) : v'.IsFree c ↔ v.IsFree c := by
  have place := layout.sectors _ (layout.sector_lt inHeap)
  rw [IsFree, IsFree, isFreeCluster, isFreeCluster, relinked.setup, relinked.others _ (by rw [place.2]; simp)]

end Volume

/-- A handle apart from its touched set. -/
def File.bare (file : File) : File := { file with touched := .new }

/-- The run of `m` ends with `r` in a sound state that stands for the volume and the handle in `t`. -/
abbrev FileSession.Leads {size n : Nat} {α : Type} (home : Nat → CacheKind) (m : ExFat (FileSession size n) α)
    (s : FileSession size n) (r : Except (Fault ExFatError) α) (t : Volume size × File) : Prop :=
  Exec.Leads (fun s => s.fs.Sound home) (fun s => (s.fs.volume home, s.file.bare)) m s r t

namespace FileSession

variable {size n : Nat} {α : Type} {home : Nat → CacheKind} {s : FileSession size n}

theorem leads_onSession {m : ExFat (Session size n) α} {r : Except (Fault ExFatError) α} {v : Volume size}
    (run : Session.Leads home m ⟨s.fs, s.file.touched⟩ r v) : Leads home (onSession m) s r (v, s.file.bare) := by
  obtain ⟨t, run, fine, shown⟩ := run
  have whole : onSession m s = (r, ⟨t.fs, { s.file with touched := t.touched }⟩) := by
    rw [onSession, Exec.zoom_apply, run]
  exact .of_run whole fine (by rw [← shown]; rfl)

theorem leads_onFs {m : ExFat (FileSystem size n) α} {r : Except (Fault ExFatError) α} {v : Volume size}
    (run : FileSystem.Leads home m s.fs r v) : Leads home (onFs m) s r (v, s.file.bare) := by
  obtain ⟨fs', run, fine, shown⟩ := run
  have whole : onFs m s = (r, { s with fs := fs' }) := by
    rw [onFs, Exec.zoom_apply, run]
  exact .of_run whole fine (by rw [← shown])

theorem leads_modifyFile (sound : s.fs.Sound home) (g : File → File) :
    Leads home (modifyFile g) s (.ok ()) (s.fs.volume home, (g s.file).bare) :=
  .of_run rfl sound rfl

end FileSession

namespace File

variable {size n : Nat} {home : Nat → CacheKind}

theorem linkContiguous_leads (rounds : Nat) : ∀ {s : Session size n} {v : Volume size} {c : Nat},
    s.fs.Sound home → s.fs.volume home = v → Layout size home v.setup →
    (∀ d ∈ List.range' c (rounds + 1), v.InHeap d) →
    Session.Leads home (linkContiguous rounds c) s (.ok ()) (v.linkPath (List.range' c (rounds + 1))) := by
  induction rounds with
  | zero =>
    intro s v c sound shown _ _
    exact .of_run rfl sound shown
  | succ rounds ih =>
    intro s v c sound shown layout inside
    subst shown
    rw [linkContiguous, List.range'_succ, List.range'_succ, Volume.linkPath, ← List.range'_succ]
    refine (Fat.set_leads sound layout (inside c (by simp)) (c + 1)).bind fun s' sound' shown' => ?_
    exact ih sound' shown' layout fun d member => inside d (by
      rw [List.range'_succ]
      exact List.mem_cons_of_mem c member)

theorem linkRun_leads (rounds : Nat) : ∀ {s : Session size n} {v : Volume size} (prev : Option Nat) {c : Nat},
    s.fs.Sound home → s.fs.volume home = v → Layout size home v.setup →
    (∀ d ∈ prev.toList ++ List.range' c rounds, v.InHeap d) →
    Session.Leads home (linkRun rounds prev c) s (.ok ()) (v.linkPath (prev.toList ++ List.range' c rounds)) := by
  induction rounds with
  | zero =>
    intro s v prev c sound shown _ _
    cases prev <;> exact .of_run rfl sound shown
  | succ rounds ih =>
    intro s v prev c sound shown layout inside
    subst shown
    rw [List.range'_succ]
    cases prev with
    | none =>
      refine .step rfl ?_
      exact ih (some c) sound rfl layout fun d member => inside d (by
        simpa [List.range'_succ] using member)
    | some p =>
      refine (Fat.set_leads sound layout (inside p (by simp)) c).bind fun s' sound' shown' => ?_
      exact ih (some c) sound' shown' layout fun d member => inside d (by
        rw [Option.toList_some, List.singleton_append] at member
        rw [List.range'_succ]
        exact List.mem_append_right _ member)

/-- What growing a chain by clusters from `first` on does to the handle. -/
structure Grown (clusterLength first : Nat) (file file' : File) : Prop where
  details : file'.details = { file.details with flags := file'.details.flags }
  cursor : file'.cursor = file.cursor
  options : file'.openOptions = file.openOptions
  grown : file'.chain ≠ .empty
  start : file.chain = .empty → file'.currentCluster = first ∧ file'.remainingBytesInCluster = clusterLength
  place : file.chain ≠ .empty → file'.currentCluster = file.currentCluster ∧
    file'.remainingBytesInCluster = file.remainingBytesInCluster

theorem lists_empty {chain : StoredChain} {cs : List Nat} (lists : chain.Lists cs) : chain = .empty ↔ cs = [] := by
  cases chain with
  | empty => exact ⟨fun _ => lists, fun _ => rfl⟩
  | contiguous first clusterCount =>
    obtain ⟨pos, rfl⟩ := lists
    simp
    omega
  | fat first last clusterCount =>
    obtain ⟨head, _⟩ := lists
    constructor
    · intro equal; cases equal
    · rintro rfl; cases head

theorem lastCluster_run {chain : StoredChain} {cs : List Nat} (lists : chain.Lists cs)
    (bound : ∀ c ∈ cs, c + 1 < 2 ^ 32) (s : FileSession size n) : lastCluster chain s = (.ok cs.getLast?, s) := by
  cases chain with
  | empty =>
    subst lists
    rfl
  | contiguous first clusterCount =>
    obtain ⟨pos, rfl⟩ := lists
    have final := bound (first + clusterCount - 1) (by rw [List.mem_range'_1]; omega)
    rw [lastCluster, Exec.bind_of_ok (u32_of_lt (by omega) s), Exec.bind_of_ok (minus_of_le (by omega) s)]
    simp [List.getLast?_range', show clusterCount ≠ 0 by omega]
  | fat first last clusterCount =>
    rw [lists.2.1]
    rfl

theorem lastOf_run {run : AllocatedRun} (pos : 0 < run.clusterCount)
    (bound : run.firstCluster + run.clusterCount < 2 ^ 32) (s : FileSession size n) :
    lastOf run s = (.ok (run.firstCluster + run.clusterCount - 1), s) := by
  rw [lastOf, Exec.bind_of_ok (u32_of_lt bound s)]
  exact minus_of_le (by omega) s

theorem getLast?_clusters {run : AllocatedRun} (pos : 0 < run.clusterCount) :
    run.clusters.getLast? = some (run.firstCluster + run.clusterCount - 1) := by
  simp [AllocatedRun.clusters, List.getLast?_range', show run.clusterCount ≠ 0 by omega]

/-- The chain after `storeChain`. -/
def grownChain (run : AllocatedRun) (hasFatChain : Bool) : StoredChain → StoredChain
  | .empty => .contiguous run.firstCluster run.clusterCount
  | .contiguous first clusterCount =>
    if hasFatChain then
      .fat first (run.firstCluster + run.clusterCount - 1) (clusterCount + run.clusterCount)
    else .contiguous first (clusterCount + run.clusterCount)
  | .fat first _ clusterCount =>
    .fat first (run.firstCluster + run.clusterCount - 1) (clusterCount + run.clusterCount)

/-- The handle after `storeChain`. -/
def grow (file : File) (run : AllocatedRun) (hasFatChain : Bool) (clusterLength : Nat) : File :=
  { file with
    chain := grownChain run hasFatChain file.chain
    currentCluster := if file.chain = .empty then run.firstCluster else file.currentCluster
    remainingBytesInCluster := if file.chain = .empty then clusterLength else file.remainingBytesInCluster }

theorem bare_grow (file : File) (run : AllocatedRun) (hasFatChain : Bool) (clusterLength : Nat) :
    (file.grow run hasFatChain clusterLength).bare = file.bare.grow run hasFatChain clusterLength := rfl

/-- The flags and the touched set make no difference. -/
theorem grow_grown (file : File) (flags : GeneralSecondaryFlags) (run : AllocatedRun) (hasFatChain : Bool)
    (clusterLength : Nat) : Grown clusterLength run.firstCluster file
      (grow { file with details := { file.details with flags }, touched := .new } run hasFatChain clusterLength) where
  details := rfl
  cursor := rfl
  options := rfl
  grown := by
    rw [grow]
    dsimp only
    cases file.chain with
    | empty => simp [grownChain]
    | contiguous first clusterCount => cases hasFatChain <;> simp [grownChain]
    | fat first last clusterCount => simp [grownChain]
  start empty := ⟨if_pos empty, if_pos empty⟩
  place nonempty := ⟨if_neg nonempty, if_neg nonempty⟩

/-- Without a FAT chain a run has to continue the chain. -/
def Continues (chain : StoredChain) (run : AllocatedRun) : Prop :=
  chain = .empty ∨ ∃ first clusterCount, chain = .contiguous first clusterCount ∧
    first + clusterCount = run.firstCluster

/-- The grown chain stands for the clusters there were and those of the run. -/
theorem lists_grownChain {chain : StoredChain} {cs : List Nat} {run : AllocatedRun} {hasFatChain : Bool}
    (lists : chain.Lists cs) (pos : 0 < run.clusterCount)
    (plain : hasFatChain = false → Continues chain run) :
    (grownChain run hasFatChain chain).Lists (cs ++ run.clusters) := by
  have fat : ∀ first, cs.head? = some first → ∀ clusterCount, cs.length = clusterCount →
      (StoredChain.fat first (run.firstCluster + run.clusterCount - 1) (clusterCount + run.clusterCount)).Lists
        (cs ++ run.clusters) := by
    intro first head clusterCount length
    refine ⟨?_, ?_, ?_⟩
    · rw [List.head?_append, head, Option.some_or]
    · rw [List.getLast?_append, getLast?_clusters pos, Option.some_or]
    · rw [List.length_append, length, AllocatedRun.clusters, List.length_range']
  cases chain with
  | empty =>
    subst lists
    exact ⟨pos, rfl⟩
  | contiguous first clusterCount =>
    obtain ⟨nonempty, rfl⟩ := lists
    cases hasFatChain with
    | true =>
      refine fat first ?_ clusterCount (by simp)
      simp [List.head?_range', show clusterCount ≠ 0 by omega]
    | false =>
      obtain ⟨f, k, same, adjacent⟩ := (plain rfl).resolve_left (by simp)
      cases same
      refine ⟨by omega, ?_⟩
      rw [AllocatedRun.clusters, ← adjacent, List.range'_append_1]
  | fat first last clusterCount => exact fat first lists.1 clusterCount lists.2.2

theorem stored_grownChain {chain : StoredChain} {run : AllocatedRun} {hasFatChain : Bool}
    (plain : hasFatChain = false → Continues chain run) {first last clusterCount : Nat}
    (grown : grownChain run hasFatChain chain = .fat first last clusterCount) : hasFatChain = true := by
  cases hasFatChain with
  | true => rfl
  | false =>
    rcases plain rfl with rfl | ⟨f, k, rfl, _⟩
    · cases grown
    · cases grown

theorem storeChain_run {s : FileSession size n} {cs : List Nat} {run : AllocatedRun} (hasFatChain : Bool)
    (lists : s.file.chain.Lists cs) (pos : 0 < run.clusterCount)
    (bound : run.firstCluster + run.clusterCount < 2 ^ 32) (room : cs.length + run.clusterCount < 2 ^ 32) :
    storeChain run hasFatChain s.file.chain s =
      (.ok (), ⟨s.fs, s.file.grow run hasFatChain s.fs.fs.clusterLength⟩) := by
  rw [grow]
  cases chain : s.file.chain with
  | empty => rfl
  | contiguous first clusterCount =>
    rw [chain] at lists
    have length : clusterCount = cs.length := by rw [lists.2, List.length_range']
    cases hasFatChain with
    | true =>
      rw [storeChain, if_pos rfl, Exec.bind_of_ok (lastOf_run pos bound s),
        Exec.bind_of_ok (u32_of_lt (by omega) s)]
      rfl
    | false =>
      rw [storeChain, if_neg (by simp), Exec.bind_of_ok (u32_of_lt (by omega) s)]
      rfl
  | fat first last clusterCount =>
    rw [chain] at lists
    have length : clusterCount = cs.length := lists.2.2.symm
    rw [storeChain, Exec.bind_of_ok (lastOf_run pos bound s), Exec.bind_of_ok (u32_of_lt (by omega) s)]
    rfl

/-- A run that a chain can grow by: allocated clusters of the data area that
are not in the chain. -/
def Fresh (home : Nat → CacheKind) (v : Volume size) (cs : List Nat) (run : AllocatedRun) : Prop :=
  ∀ c, run.Has c → v.InHeap c ∧ ¬ v.IsFree c ∧ v.IsData home c ∧ c ∉ cs

section

variable {v v' : Volume size} {cs : List Nat} {run : AllocatedRun} {noFatChain : Bool} {chain : StoredChain}

theorem Fresh.distinct (fresh : Fresh home v cs run) (distinct : cs.Nodup) : (cs ++ run.clusters).Nodup := by
  refine List.nodup_append.mpr ⟨distinct, List.nodup_range', ?_⟩
  rintro c mine d theirs rfl
  exact (fresh c (AllocatedRun.mem_clusters.mp theirs)).2.2.2 mine

theorem Fresh.inHeap (fresh : Fresh home v cs run) (inHeap : ∀ c ∈ cs, v.InHeap c) :
    ∀ c ∈ cs ++ run.clusters, v.InHeap c := by
  intro c member
  rcases List.mem_append.mp member with old | added
  · exact inHeap c old
  · exact (fresh c (AllocatedRun.mem_clusters.mp added)).1

/-- The grown chain, once the FAT is as it has to be. -/
theorem Fresh.owns (fresh : Fresh home v cs run) (layout : BitmapLayout size home v.setup)
    (distinct : cs.Nodup) (inHeap : ∀ c ∈ cs, v.InHeap c) (used : ∀ c ∈ cs, ¬ v.IsFree c)
    (data : ∀ c ∈ cs, v.IsData home c) (relinked : Volume.Relinked home (cs ++ run.clusters) v v')
    (lists : chain.Lists (cs ++ run.clusters))
    (threads : noFatChain = false → v'.Threads (cs ++ run.clusters))
    (stored : ∀ first last clusterCount, chain = .fat first last clusterCount → noFatChain = false) :
    v'.Owns home noFatChain chain (cs ++ run.clusters) where
  lists := lists
  threads := threads
  stored := stored
  distinct := fresh.distinct distinct
  inHeap c member := relinked.inHeap.mpr (fresh.inHeap inHeap c member)
  used c member := by
    rw [relinked.isFree layout (fresh.inHeap inHeap c member)]
    rcases List.mem_append.mp member with old | added
    · exact used c old
    · exact (fresh c (AllocatedRun.mem_clusters.mp added)).2.1
  data c member := by
    rw [relinked.isData]
    rcases List.mem_append.mp member with old | added
    · exact data c old
    · exact (fresh c (AllocatedRun.mem_clusters.mp added)).2.2.1

end

/-- A list of distinct clusters is no longer than the heap. -/
theorem length_le_heap {v : Volume size} {cs : List Nat} (distinct : cs.Nodup) (inHeap : ∀ c ∈ cs, v.InHeap c) :
    cs.length ≤ v.setup.bitmap.clusterCount := by
  have inside : cs.toFinset ⊆ Finset.Ico 2 (2 + v.setup.bitmap.clusterCount) := by
    intro c member
    exact Finset.mem_Ico.mpr (inHeap c (List.mem_toFinset.mp member))
  have few := Finset.card_le_card inside
  rw [List.toFinset_card_of_nodup distinct, Nat.card_Ico] at few
  omega

/-- The volume on which the run is linked behind the clusters, and ends the chain. -/
def adopted (v : Volume size) (cs : List Nat) (run : AllocatedRun) : Volume size :=
  (v.linkPath (cs.getLast?.toList ++ run.clusters)).link (run.firstCluster + run.clusterCount - 1) Fat.endOfChain

section Adopt

variable {cs : List Nat} {run : AllocatedRun}

/-- The run, and what it is linked behind, are in the chain that they make. -/
theorem path_subset : cs.getLast?.toList ++ run.clusters ⊆ cs ++ run.clusters := by
  intro c member
  rcases List.mem_append.mp member with old | added
  · exact List.mem_append_left _ (List.mem_of_getLast? (Option.mem_toList.mp old))
  · exact List.mem_append_right _ added

theorem adopted_relinked {v : Volume size} (layout : Layout size home v.setup)
    (inside : ∀ c ∈ cs ++ run.clusters, v.InHeap c)
    (pos : 0 < run.clusterCount) : Volume.Relinked home (cs ++ run.clusters) v (adopted v cs run) := by
  have final : v.InHeap (run.firstCluster + run.clusterCount - 1) :=
    inside _ (List.mem_append_right _ (AllocatedRun.mem_clusters.mpr ⟨by omega, by omega⟩))
  have first := (Layout.linkPath_relinked _ layout fun c member => inside c (path_subset member)).mono path_subset
  refine first.trans ((Layout.link_relinked (by rwa [first.setup]) (first.inHeap.mpr final) _).mono ?_)
  intro c member
  rw [List.mem_singleton.mp member]
  exact List.mem_append_right _ (List.mem_of_getLast? (getLast?_clusters pos))

/-- The run is linked behind the chain and ends it, before anything else is done. -/
theorem linkRun_ends {s : FileSession size n} (sound : s.fs.Sound home) (layout : Layout size home s.fs.setup)
    (inside : ∀ c ∈ cs ++ run.clusters, (s.fs.volume home).InHeap c) (pos : 0 < run.clusterCount) {α : Type}
    {rest : ExFat (FileSession size n) α} {r : Except (Fault ExFatError) α} {shown : Volume size × File}
    (next : ∀ {s' : FileSession size n}, s'.fs.Sound home → s'.file.bare = s.file.bare → s'.fs.setup = s.fs.setup →
      s'.fs.volume home = adopted (s.fs.volume home) cs run → FileSession.Leads home rest s' r shown) :
    FileSession.Leads home (do
      FileSession.onSession (linkRun run.clusterCount cs.getLast? run.firstCluster)
      FileSession.onSession (Fat.set (run.firstCluster + run.clusterCount - 1) Fat.endOfChain)
      rest) s r shown := by
  refine (FileSession.leads_onSession (linkRun_leads run.clusterCount cs.getLast? sound rfl layout fun c member =>
    inside c (path_subset member))).bind fun s₁ sound₁ shown₁ => ?_
  have volume₁ : s₁.fs.volume home = (s.fs.volume home).linkPath (cs.getLast?.toList ++ run.clusters) :=
    (Prod.mk.inj shown₁).1
  have file₁ := (Prod.mk.inj shown₁).2
  have setup₁ : s₁.fs.setup = s.fs.setup := (congrArg Volume.setup volume₁).trans (Volume.linkPath_setup _ _)
  have final₁ : (s₁.fs.volume home).InHeap (run.firstCluster + run.clusterCount - 1) := by
    rw [Volume.InHeap, Volume.endCluster, FileSystem.volume_setup, setup₁]
    exact inside _ (List.mem_append_right _ (AllocatedRun.mem_clusters.mpr ⟨by omega, by omega⟩))
  have ended := Fat.set_leads (s := ⟨s₁.fs, s₁.file.touched⟩) sound₁ (setup₁ ▸ layout) final₁ Fat.endOfChain
  refine (FileSession.leads_onSession ended).bind fun s₂ sound₂ shown₂ => ?_
  have volume₂ : s₂.fs.volume home =
    (s₁.fs.volume home).link (run.firstCluster + run.clusterCount - 1) Fat.endOfChain :=
    (Prod.mk.inj shown₂).1
  have setup₂ : s₂.fs.setup = s₁.fs.setup := congrArg Volume.setup volume₂
  refine next sound₂ ((Prod.mk.inj shown₂).2.trans file₁) (setup₂.trans setup₁) ?_
  rw [volume₂, volume₁, adopted]

theorem adoptRun_leads {s : FileSession size n} (sound : s.fs.Sound home) (layout : Layout size home s.fs.setup)
    {cs : List Nat} {run : AllocatedRun} (lists : s.file.chain.Lists cs) (whole : (cs ++ run.clusters).Nodup)
    (inside : ∀ c ∈ cs ++ run.clusters, (s.fs.volume home).InHeap c) (pos : 0 < run.clusterCount)
    (linked : s.file.details.flags.noFatChain = false → (s.fs.volume home).Linked cs) :
    ∃ v', FileSession.Leads home (adoptRun run) s (.ok ()) (v',
        s.file.bare.grow run (!s.file.details.flags.noFatChain) s.fs.fs.clusterLength) ∧
      Volume.Relinked home (cs ++ run.clusters) (s.fs.volume home) v' ∧
      (s.file.details.flags.noFatChain = false → v'.Threads (cs ++ run.clusters)) := by
  have inHeap : ∀ c ∈ cs, (s.fs.volume home).InHeap c := fun c member => inside c (List.mem_append_left _ member)
  have ids := layout.ids
  have bound : run.firstCluster + run.clusterCount < 2 ^ 32 := by
    have final := inside (run.firstCluster + run.clusterCount - 1)
      (List.mem_append_right _ (AllocatedRun.mem_clusters.mpr ⟨by omega, by omega⟩))
    have high : run.firstCluster + run.clusterCount - 1 < 2 + s.fs.setup.bitmap.clusterCount := final.2
    simp only [Fat.clusterLen] at ids
    omega
  have room : cs.length + run.clusterCount < 2 ^ 32 := by
    have few := length_le_heap whole inside
    simp only [Fat.clusterLen, FileSystem.volume_setup, List.length_append, AllocatedRun.clusters,
      List.length_range'] at ids few
    omega
  have finish : ∀ {s' : FileSession size n}, s'.fs.Sound home → s'.file.bare = s.file.bare →
      s'.fs.fs.clusterLength = s.fs.fs.clusterLength →
      FileSession.Leads home (storeChain run (!s.file.details.flags.noFatChain) s.file.chain) s' (.ok ())
        (s'.fs.volume home, s.file.bare.grow run (!s.file.details.flags.noFatChain) s.fs.fs.clusterLength) := by
    intro s' sound' same length
    have chain : s.file.chain = s'.file.chain := (congrArg File.chain same).symm
    rw [chain] at lists ⊢
    refine .of_run (storeChain_run _ lists pos bound room) sound' ?_
    rw [bare_grow, same, length]
  cases noFatChain : s.file.details.flags.noFatChain with
  | true =>
    rw [noFatChain] at finish
    refine ⟨_, ?_, .refl _ _, by simp⟩
    rw [adoptRun]
    refine .get ?_
    dsimp only
    rw [noFatChain, if_neg (by simp)]
    exact finish sound rfl rfl
  | false =>
    rw [noFatChain] at finish
    have before : ∀ c ∈ cs, c + 1 < 2 ^ 32 := by
      intro c member
      have high : c < 2 + s.fs.setup.bitmap.clusterCount := (inHeap c member).2
      simp only [Fat.clusterLen] at ids
      omega
    refine ⟨_, ?_, adopted_relinked layout inside pos, fun _ => ?_⟩
    · rw [adoptRun]
      refine .get ?_
      dsimp only
      rw [noFatChain, if_pos (by simp)]
      refine .step (lastCluster_run lists before s) (.step (lastOf_run pos bound s) ?_)
      refine linkRun_ends sound layout inside pos fun sound' same setup volume => ?_
      rw [← volume]
      exact finish sound' same (congrArg (fun u : Setup => u.details.clusterLength) setup)
    · exact Volume.Linked.extend layout.words layout.pos (linked noFatChain) whole
        (fun c member => ⟨(inside c member).1, (Layout.id_bound (v := s.fs.volume home) layout (inside c member)).1⟩)
        (getLast?_clusters pos)

end Adopt

/-- The handle without the NoFatChain flag. -/
def withFatChain (file : File) : File :=
  { file with details := { file.details with flags := { file.details.flags with noFatChain := false } } }

theorem convertFileToFatChainIfRequired_leads {s : FileSession size n} (sound : s.fs.Sound home)
    (layout : Layout size home s.fs.setup) {first clusterCount : Nat} (pos : 0 < clusterCount)
    (chain : s.file.chain = .contiguous first clusterCount) (noFatChain : s.file.details.flags.noFatChain = true)
    (inHeap : ∀ c ∈ List.range' first clusterCount, (s.fs.volume home).InHeap c) :
    FileSession.Leads home convertFileToFatChainIfRequired s (.ok ())
      ((s.fs.volume home).linkPath (List.range' first clusterCount), s.file.bare.withFatChain) := by
  have final : (s.fs.volume home).InHeap (first + clusterCount - 1) :=
    inHeap _ (by rw [List.mem_range'_1]; omega)
  have ids := layout.ids
  have bound : first + clusterCount < 2 ^ 32 := by
    have high : first + clusterCount - 1 < 2 + s.fs.setup.bitmap.clusterCount := final.2
    simp only [Fat.clusterLen] at ids
    omega
  have rounds : clusterCount = first + clusterCount - 1 - first + 1 := by omega
  rw [convertFileToFatChainIfRequired]
  refine .get ?_
  dsimp only
  rw [if_pos noFatChain]
  refine (FileSession.leads_modifyFile sound _).bind fun s₁ sound₁ shown₁ => ?_
  have volume₁ := (Prod.mk.inj shown₁).1
  have file₁ := (Prod.mk.inj shown₁).2
  have setup₁ : s₁.fs.setup = s.fs.setup := congrArg Volume.setup volume₁
  rw [chain]
  refine .step (u32_of_lt bound s₁) (.step (minus_of_le (by omega) s₁) ?_)
  have linked := FileSession.leads_onSession (s := s₁) (linkContiguous_leads (first + clusterCount - 1 - first)
    sound₁ rfl (show Layout size home s₁.fs.setup from setup₁ ▸ layout) (c := first) (by
      rw [← rounds]
      intro d member
      rw [volume₁]
      exact inHeap d member))
  rw [← rounds] at linked
  obtain ⟨s₂, run₂, sound₂, shown₂⟩ := linked
  refine .of_run run₂ sound₂ ?_
  exact shown₂.trans (Prod.ext (congrArg (Volume.linkPath _) volume₁) file₁)

theorem shouldConvertToFatChain_run {file : File} (run : AllocatedRun) (s : FileSession size n)
    (bound : ∀ first clusterCount, file.chain = .contiguous first clusterCount → first + clusterCount < 2 ^ 32) :
    ∃ convert, shouldConvertToFatChain file run s = (.ok convert, s) ∧
      (convert = true → ∃ first clusterCount, file.chain = .contiguous first clusterCount ∧
        file.details.flags.noFatChain = true) ∧
      (convert = false → file.details.flags.noFatChain = true → file.chain = .empty ∨
        (∃ first clusterCount, file.chain = .contiguous first clusterCount ∧
          first + clusterCount = run.firstCluster) ∨
        ∃ first last clusterCount, file.chain = .fat first last clusterCount) := by
  unfold shouldConvertToFatChain
  cases chain : file.chain with
  | empty => exact ⟨false, rfl, by simp, by simp⟩
  | contiguous first clusterCount =>
    cases noFatChain : file.details.flags.noFatChain with
    | false => exact ⟨false, rfl, by simp, by simp⟩
    | true =>
      refine ⟨first + clusterCount != run.firstCluster, ?_, ?_, ?_⟩
      · simp only [if_true]
        exact Exec.bind_of_ok (u32_of_lt (bound first clusterCount chain) s)
      · exact fun _ => ⟨first, clusterCount, rfl, rfl⟩
      · intro same _
        exact Or.inr (Or.inl ⟨first, clusterCount, rfl, by simpa using same⟩)
  | fat first last clusterCount => exact ⟨false, rfl, by simp, by simp⟩

/-- Growing keeps what a chain represents, whatever its form and flag. -/
theorem updateChain_relinks {s : FileSession size n} (sound : s.fs.Sound home) (layout : Layout size home s.fs.setup)
    {cs : List Nat} {run : AllocatedRun}
    (represents : (s.fs.volume home).Represents s.file.details.flags.noFatChain s.file.chain cs)
    (pos : 0 < run.clusterCount) (whole : (cs ++ run.clusters).Nodup)
    (inside : ∀ c ∈ cs ++ run.clusters, (s.fs.volume home).InHeap c) :
    ∃ v' f', FileSession.Leads home (updateChain run) s (.ok ()) (v', f') ∧
      Volume.Relinked home (cs ++ run.clusters) (s.fs.volume home) v' ∧
      v'.Represents f'.details.flags.noFatChain f'.chain (cs ++ run.clusters) ∧
      (f'.details.flags.noFatChain = true → s.file.details.flags.noFatChain = true) ∧
      Grown s.fs.fs.clusterLength run.firstCluster s.file f' := by
  have inHeap : ∀ c ∈ cs, (s.fs.volume home).InHeap c := fun c member => inside c (List.mem_append_left _ member)
  have ids := layout.ids
  have bound : ∀ first clusterCount, s.file.chain = .contiguous first clusterCount →
      first + clusterCount < 2 ^ 32 := by
    intro first clusterCount chain
    have lists := represents.lists
    rw [chain] at lists
    obtain ⟨some_, rfl⟩ := lists
    have final := inHeap (first + clusterCount - 1) (by rw [List.mem_range'_1]; omega)
    have high : first + clusterCount - 1 < 2 + s.fs.setup.bitmap.clusterCount := final.2
    simp only [Fat.clusterLen] at ids
    omega
  obtain ⟨convert, asked, yes, no⟩ := shouldConvertToFatChain_run run s bound
  cases convert with
  | true =>
    obtain ⟨first, clusterCount, chain, noFatChain⟩ := yes rfl
    have lists := represents.lists
    rw [chain] at lists
    obtain ⟨nonempty, rfl⟩ := lists
    obtain ⟨s₁, run₁, sound₁, shown₁⟩ := convertFileToFatChainIfRequired_leads sound layout nonempty chain
      noFatChain inHeap
    have volume₁ : s₁.fs.volume home = (s.fs.volume home).linkPath (List.range' first clusterCount) :=
      (Prod.mk.inj shown₁).1
    have file₁ : s₁.file.bare = s.file.bare.withFatChain := (Prod.mk.inj shown₁).2
    have setup₁ : s₁.fs.setup = s.fs.setup :=
      (congrArg Volume.setup volume₁).trans (Volume.linkPath_setup _ _)
    have chain₁ : s₁.file.bare.chain = s.file.bare.withFatChain.chain := by rw [file₁]
    have flag₁ : s₁.file.details.flags.noFatChain = false :=
      congrArg (fun file : File => file.details.flags.noFatChain) file₁
    have length₁ : s₁.fs.fs.clusterLength = s.fs.fs.clusterLength :=
      congrArg (fun u : Setup => u.details.clusterLength) setup₁
    have relinked₁ : Volume.Relinked home (List.range' first clusterCount ++ run.clusters) (s.fs.volume home)
        (s₁.fs.volume home) := by
      rw [volume₁]
      exact (Layout.linkPath_relinked _ layout inHeap).mono (List.subset_append_left _ _)
    obtain ⟨v', leads, relinked, threads⟩ := adoptRun_leads sound₁ (setup₁ ▸ layout) (chain₁ ▸ represents.lists)
      whole (fun c member => relinked₁.inHeap.mpr (inside c member)) pos fun _ => by
        rw [volume₁]
        exact Volume.next_linkPath layout.words layout.pos _ _ (List.nodup_append.mp whole).1 fun c member =>
          ⟨(inHeap c member).1, (Layout.id_bound (v := s.fs.volume home) layout (inHeap c member)).1⟩
    rw [file₁, flag₁, length₁] at leads
    refine ⟨v', _, ?_, relinked₁.trans relinked, ?_, fun _ => noFatChain, grow_grown s.file
      { s.file.details.flags with noFatChain := false } run (!false) s.fs.fs.clusterLength⟩
    · rw [updateChain]
      refine .get (.step asked ?_)
      rw [if_pos rfl]
      obtain ⟨s₂, run₂, sound₂, shown₂⟩ := leads
      exact .of_run ((Exec.bind_of_ok run₁).trans run₂) sound₂ shown₂
    · exact ⟨lists_grownChain represents.lists pos (by simp), fun _ => threads flag₁, fun _ _ _ _ => rfl⟩
  | false =>
    have plain : (!s.file.details.flags.noFatChain) = false → Continues s.file.chain run := by
      intro noFatChain
      have noFatChain : s.file.details.flags.noFatChain = true := by simpa using noFatChain
      rcases no rfl noFatChain with empty | adjacent | ⟨f, l, k, fat⟩
      · exact Or.inl empty
      · exact Or.inr adjacent
      · rw [represents.stored f l k fat] at noFatChain
        cases noFatChain
    obtain ⟨v', leads, relinked, threads⟩ := adoptRun_leads sound layout represents.lists whole inside pos
      fun noFatChain => (represents.threads noFatChain).linked
    refine ⟨v', _, ?_, relinked, ?_, ?_, grow_grown s.file s.file.details.flags run
      (!s.file.details.flags.noFatChain) s.fs.fs.clusterLength⟩
    · rw [updateChain]
      exact .get (.step asked leads)
    · exact ⟨lists_grownChain represents.lists pos plain, threads,
        fun f l k grown => Bool.not_eq_true' _ ▸ stored_grownChain plain grown⟩
    · exact fun noFatChain => noFatChain

theorem updateChain_leads {s : FileSession size n} (sound : s.fs.Sound home) (layout : Layout size home s.fs.setup)
    {cs : List Nat} {run : AllocatedRun}
    (owns : (s.fs.volume home).Owns home s.file.details.flags.noFatChain s.file.chain cs)
    (pos : 0 < run.clusterCount) (fresh : Fresh home (s.fs.volume home) cs run) :
    ∃ v' f', FileSession.Leads home (updateChain run) s (.ok ()) (v', f') ∧
      Volume.Relinked home (cs ++ run.clusters) (s.fs.volume home) v' ∧
      v'.Owns home f'.details.flags.noFatChain f'.chain (cs ++ run.clusters) ∧
      Grown s.fs.fs.clusterLength run.firstCluster s.file f' := by
  obtain ⟨v', f', leads, relinked, represents, _, grown⟩ :=
    updateChain_relinks sound layout ⟨owns.lists, owns.threads, owns.stored⟩ pos
    (fresh.distinct owns.distinct) (fresh.inHeap owns.inHeap)
  exact ⟨v', f', leads, relinked,
    fresh.owns layout.toBitmapLayout owns.distinct owns.inHeap owns.used owns.data relinked
    represents.lists represents.threads represents.stored, grown⟩

end File

end ExFatSlim
