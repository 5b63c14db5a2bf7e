import ExFatSlim.AllocatorSearch

namespace ExFatSlim

namespace AllocatedRun

/-- The clusters of a run. -/
def Has (run : AllocatedRun) (c : Nat) : Prop :=
  run.firstCluster ≤ c ∧ c < run.firstCluster + run.clusterCount

instance (run : AllocatedRun) (c : Nat) : Decidable (run.Has c) := inferInstanceAs (Decidable (_ ∧ _))

end AllocatedRun

theorem BitmapLayout.of_bitmap {size : Nat} {home : Nat → CacheKind} {u u' : Setup}
    (layout : BitmapLayout size home u)
    (same : u'.bitmap = u.bitmap) : BitmapLayout size home u' where
  pos := layout.pos
  words := layout.words
  covers := same ▸ layout.covers
  padding := same ▸ layout.padding
  sectors := same ▸ layout.sectors

namespace Volume

variable {size : Nat}

/-- The volume with another start of the next search. -/
def searchAt (v : Volume size) (c : Nat) : Volume size :=
  { v with setup := { v.setup with nextSearchCluster := c } }

/-- A run that the allocator may hand out: free clusters of the heap, at most
`count` of them, and with the first-run policy at the hint if that is free. -/
structure Grants (v : Volume size) (policy : SearchPolicy) (hint count : Nat) (run : AllocatedRun) :
    Prop where
  pos : 0 < run.clusterCount
  few : run.clusterCount ≤ count
  low : 2 ≤ run.firstCluster
  high : run.firstCluster + run.clusterCount ≤ v.endCluster
  free : ∀ c, run.Has c → v.IsFree c
  near : policy = .firstRun → v.InHeap hint → v.IsFree hint → run.firstCluster = hint

theorem Grants.of_search {v : Volume size} {policy : SearchPolicy} {hint start count : Nat}
    {run : AllocatedRun} (found : FreeRun v.IsFree policy start v.endCluster count run) (low : 2 ≤ start)
    (from_hint : v.InHeap hint → v.IsFree hint → start = hint) : v.Grants policy hint count run where
  pos := found.pos
  few := found.few
  low := low.trans found.above
  high := found.below
  free c has := found.allFree c has.1 has.2
  near isFirst inHeap free := by
    have same := from_hint inHeap free
    by_contra apart
    have above := found.above
    exact found.first isFirst hint (by omega) (by omega) free

end Volume

namespace Allocator

variable {size n : Nat} {home : Nat → CacheKind} {policy : SearchPolicy}

theorem searchAt_leads {fs : FileSystem size n} (sound : fs.Sound home) (c : Nat) :
    FileSystem.Leads home (modify fun fs => { fs with
      allocator := { fs.allocator with nextSearchCluster := c } }) fs (.ok ())
      ((fs.volume home).searchAt c) := by
  refine .of_run rfl ?_ ?_
  · intro k
    cases k
    · exact sound .fat
    · exact sound .bitmap
    · exact sound .data
  · simp only [FileSystem.volume, Volume.searchAt, FileSystem.setup, Volume.mk.injEq, true_and]
    funext s
    rw [FileSystem.sector, FileSystem.sector]
    cases home s <;> rfl

/-- What `find_free_clusters` ends with. -/
def FindResult (v : Volume size) (policy : SearchPolicy) (hint count : Nat)
    (r : Except (Fault ExFatError) AllocatedRun) (v' : Volume size) : Prop :=
  (∃ run, r = .ok run ∧ v' = v.searchAt (run.firstCluster + run.clusterCount) ∧
    v.Grants policy hint count run) ∨
  (r = .error (.error .diskFull) ∧ v' = v ∧ ∀ c, v.InHeap c → ¬ v.IsFree c)

theorem findWrapping_leads (policy : SearchPolicy) {fs : FileSystem size n} (sound : fs.Sound home)
    (layout : BitmapLayout size home fs.setup) {count hint : Nat} (wanted : 0 < count) (low : 2 ≤ hint) :
    ∃ r, FileSystem.Leads home (findWrapping hint count policy) fs r (fs.volume home) ∧
      ((∃ run, r = .ok run ∧ (fs.volume home).Grants policy hint count run) ∨
        (r = .error (.error .diskFull) ∧ ∀ c, (fs.volume home).InHeap c → ¬ (fs.volume home).IsFree c)) := by
  obtain ⟨r, search, result⟩ := findFreeClustersFrom_leads policy sound layout wanted low
  unfold findWrapping
  by_cases again : firstClusterId < hint
  · rw [if_pos again]
    rcases result with ⟨run, rfl, found⟩ | ⟨rfl, nothing⟩
    · obtain ⟨fs', runs, sound', shown'⟩ := search
      refine ⟨.ok run, .of_run ?_ sound' shown', Or.inl ⟨run, rfl, .of_search found low fun _ _ => rfl⟩⟩
      rw [onDiskFull, runs]
    · obtain ⟨fs', runs, sound', shown'⟩ := search
      have setup : fs'.setup = fs.setup := congrArg Volume.setup shown'
      obtain ⟨r, second, result⟩ := findFreeClustersFrom_leads policy sound'
        (setup ▸ layout) wanted (show 2 ≤ firstClusterId from le_rfl)
      rw [shown'] at second result
      refine ⟨r, ?_, ?_⟩
      · obtain ⟨fs'', runs', sound'', shown''⟩ := second
        refine .of_run ?_ sound'' shown''
        rw [onDiskFull, runs]
        exact runs'
      · rcases result with ⟨run, rfl, found⟩ | ⟨rfl, none⟩
        · exact Or.inl ⟨run, rfl, .of_search found le_rfl fun inHeap free =>
            absurd free (nothing hint le_rfl inHeap.2)⟩
        · exact Or.inr ⟨rfl, fun c inHeap => none c inHeap.1 inHeap.2⟩
  · rw [if_neg again]
    have same : hint = 2 := by simp only [firstClusterId] at again; omega
    refine ⟨r, search, ?_⟩
    rcases result with ⟨run, rfl, found⟩ | ⟨rfl, nothing⟩
    · exact Or.inl ⟨run, rfl, .of_search found low fun _ _ => rfl⟩
    · exact Or.inr ⟨rfl, fun c inHeap => nothing c (same ▸ inHeap.1) inHeap.2⟩

theorem findFreeClusters_leads (policy : SearchPolicy) {fs : FileSystem size n} (sound : fs.Sound home)
    (layout : BitmapLayout size home fs.setup) {count : Nat} (wanted : 0 < count) {hint : Option Nat}
    (low : 2 ≤ hint.getD fs.setup.nextSearchCluster) :
    ∃ r v, FileSystem.Leads home (findFreeClusters hint count policy) fs r v ∧
      FindResult (fs.volume home) policy (hint.getD fs.setup.nextSearchCluster) count r v := by
  have padding := layout.padding
  have covers := layout.covers
  obtain ⟨r, search, result⟩ := findWrapping_leads policy sound layout wanted low
  rcases result with ⟨run, rfl, grants⟩ | ⟨rfl, none⟩
  · refine ⟨.ok run, _, ?_, Or.inl ⟨run, rfl, rfl, grants⟩⟩
    rw [findFreeClusters]
    refine .get (search.bind fun fs' sound' shown' => ?_)
    have high := grants.high
    simp only [Volume.endCluster, FileSystem.volume_setup] at high
    refine .step (u32_of_lt (by omega) fs') ?_
    refine (searchAt_leads sound' _).bind fun fs'' sound'' shown'' => ?_
    rw [← shown', ← shown'']
    exact .pure sound'' run
  · refine ⟨_, _, ?_, Or.inr ⟨rfl, rfl, none⟩⟩
    rw [findFreeClusters]
    exact .get search.bind_error

theorem mem_chunks {chunk : BitmapChunk} {m : Nat} (pos : 0 < size) (rounds : Nat) :
    ∀ {first remaining : Nat}, chunk ∈ bitmapRunChunksIn size rounds first remaining → 2 ≤ first →
    first + remaining ≤ 2 + m * (size * 8) → chunk.sector < m := by
  induction rounds with
  | zero => intro first remaining member; simp [bitmapRunChunksIn] at member
  | succ rounds ih =>
    intro first remaining member low high
    rw [bitmapRunChunksIn] at member
    split at member
    · simp at member
    · rename_i nonempty
      have small := of_bit_lt pos first
      have place := (of_eq_iff pos low small).mp rfl
      rcases List.mem_cons.mp member with rfl | member
      · dsimp only
        by_contra past
        have reach : m * (size * 8) ≤ (BitmapPos.of size first).sector * (size * 8) :=
          Nat.mul_le_mul_right _ (Nat.le_of_not_lt past)
        omega
      · refine ih member (by omega) ?_
        simp only [BitmapPos.clustersPerSector]
        omega

/-- The chunks are marked one after the other, and the sector of each is recorded. -/
theorem markChunks_run (allocated : Bool) (chunks : List BitmapChunk) :
    ∀ {s : Session size n} {v : Volume size}, s.fs.Sound home →
    s.fs.volume home = v → (∀ chunk ∈ chunks, v.setup.bitmap.firstSector + chunk.sector < 2 ^ 32 ∧
      home (v.setup.bitmap.firstSector + chunk.sector) = .bitmap) →
    ∃ fs', markChunks allocated chunks s = (.ok (), ⟨fs', chunks.foldl (fun t chunk =>
        t.insert ⟨.bitmap, v.setup.bitmap.firstSector + chunk.sector⟩) s.touched⟩) ∧
      fs'.Sound home ∧ fs'.volume home = chunks.foldl (Volume.markChunk allocated) v := by
  induction chunks with
  | nil => exact fun {s _} sound shown _ => ⟨s.fs, rfl, sound, shown⟩
  | cons chunk rest ih =>
    intro s v sound shown inside
    obtain ⟨bound, here⟩ := inside chunk List.mem_cons_self
    have bitmap : s.fs.allocator.bitmap = v.setup.bitmap := by rw [← shown]; rfl
    obtain ⟨fs₁, marks, wrote, _⟩ :=
      FileSystem.onCache_readMut sound here fun b => setBitRange b chunk.start chunk.taken allocated
    have marked : fs₁.volume home = v.markChunk allocated chunk := by
      rw [wrote.volume, Volume.markChunk, ← shown]
      rfl
    obtain ⟨fs', run, sound', shown'⟩ :=
      @ih ⟨fs₁, s.touched.insert ⟨.bitmap, v.setup.bitmap.firstSector + chunk.sector⟩⟩ _ wrote.sound marked
      (List.forall_mem_of_forall_mem_cons inside)
    refine ⟨fs', ?_, sound', shown'⟩
    rw [markChunks, Exec.bind_of_ok (Exec.get_apply s), bitmap, Exec.bind_of_ok (u32_of_lt bound s),
      Exec.bind_of_ok (Session.onCache_of_run marks)]
    exact run

theorem markChunks_leads (allocated : Bool) (chunks : List BitmapChunk) {s : Session size n} {v : Volume size}
    (sound : s.fs.Sound home)
    (shown : s.fs.volume home = v) (layout : BitmapLayout size home v.setup)
    (inside : ∀ chunk ∈ chunks, chunk.sector < v.setup.bitmap.numSectors) :
    Session.Leads home (markChunks allocated chunks) s (.ok ()) (chunks.foldl (Volume.markChunk allocated) v) := by
  obtain ⟨fs', run, sound', shown'⟩ :=
    markChunks_run allocated chunks sound shown fun chunk member => layout.sectors _ (inside chunk member)
  exact .of_run run sound' shown'

theorem markAllocated_leads {s : Session size n} (sound : s.fs.Sound home)
    (layout : BitmapLayout size home s.fs.setup) {run : AllocatedRun} (allocated : Bool)
    (pos : 0 < run.clusterCount) (low : 2 ≤ run.firstCluster)
    (high : run.firstCluster + run.clusterCount ≤ (s.fs.volume home).endCluster) :
    Session.Leads home (markAllocated run allocated) s (.ok ()) ((s.fs.volume home).mark run allocated) := by
  have padding := layout.padding
  have covers := layout.covers
  simp only [Volume.endCluster, FileSystem.volume_setup] at high
  have bitmap : s.fs.setup.bitmap = s.fs.allocator.bitmap := rfl
  have chunks : ∀ chunk ∈ bitmapRunChunks size run.firstCluster run.clusterCount,
      chunk.sector < s.fs.setup.bitmap.numSectors :=
    fun chunk member => mem_chunks layout.pos _ member low (by omega)
  have lastSmall := of_bit_lt layout.pos (run.firstCluster + (run.clusterCount - 1))
  have lastPlace := (of_eq_iff layout.pos (c := run.firstCluster + (run.clusterCount - 1)) (by omega)
    lastSmall).mp rfl
  have lastSector : (BitmapPos.of size (run.firstCluster + (run.clusterCount - 1))).sector <
      s.fs.allocator.bitmap.numSectors := by
    by_contra past
    have reach : s.fs.allocator.bitmap.numSectors * (size * 8) ≤
        (BitmapPos.of size (run.firstCluster + (run.clusterCount - 1))).sector * (size * 8) :=
      Nat.mul_le_mul_right _ (Nat.le_of_not_lt past)
    rw [bitmap] at covers high
    omega
  rw [bitmap] at covers high padding
  rw [markAllocated, if_neg (by omega), if_neg (by simp only [firstClusterId]; omega), if_neg (by omega)]
  refine .get (.step (u32_of_lt (by simp only [firstClusterId]; omega) s) ?_)
  rw [if_neg (by simp only [firstClusterId]; omega)]
  exact markChunks_leads (v := s.fs.volume home) allocated _ sound rfl layout chunks

/-- The cluster that `allocate` searches from. -/
def hintOf (chain : StoredChain) : Option Nat :=
  match chain with
  | .empty => none
  | .contiguous first clusterCount => some (first + clusterCount)
  | .fat _ last _ => some (last + 1)

/-- The policy that `allocate` searches with. -/
def policyOf (chain : StoredChain) : SearchPolicy :=
  match chain with
  | .empty => .longestRun
  | _ => .firstRun

/-- What `allocate` ends with: a run of free clusters, all marked now, or a
full disk and no change at all. -/
def AllocateResult (v : Volume size) (chain : StoredChain) (count : Nat)
    (r : Except (Fault ExFatError) AllocatedRun) (v' : Volume size) : Prop :=
  (∃ run, r = .ok run ∧
    v' = (v.searchAt (run.firstCluster + run.clusterCount)).mark run true ∧
    v.Grants (policyOf chain) ((hintOf chain).getD v.setup.nextSearchCluster) count run) ∨
  (r = .error (.error .diskFull) ∧ v' = v ∧ ∀ c, v.InHeap c → ¬ v.IsFree c)

theorem allocate_leads {s : Session size n} (sound : s.fs.Sound home)
    (layout : BitmapLayout size home s.fs.setup) {count : Nat} (wanted : 0 < count) {chain : StoredChain}
    (low : 2 ≤ (hintOf chain).getD s.fs.setup.nextSearchCluster)
    (bound : ∀ hint, hintOf chain = some hint → hint < 2 ^ 32) :
    ∃ r v, Session.Leads home (allocate chain count) s r v ∧
      AllocateResult (s.fs.volume home) chain count r v := by
  have opened : allocate chain count s = (do
      let run ← Session.onFs (findFreeClusters (hintOf chain) count (policyOf chain))
      markAllocated run true
      pure run : ExFat (Session size n) AllocatedRun) s := by
    cases chain with
    | empty => rfl
    | contiguous first clusterCount =>
      exact Exec.bind_of_ok (u32_of_lt (bound _ rfl) s)
    | fat first last clusterCount =>
      exact Exec.bind_of_ok (u32_of_lt (bound _ rfl) s)
  obtain ⟨r, v, search, result⟩ := findFreeClusters_leads (policyOf chain) sound layout wanted low
  rcases result with ⟨run, rfl, rfl, grants⟩ | ⟨rfl, rfl, none⟩
  · refine ⟨.ok run, _, ?_, Or.inl ⟨run, rfl, rfl, grants⟩⟩
    rw [Session.Leads, Exec.Leads, opened]
    refine (Session.leads_onFs search).bind fun s' sound' shown' => ?_
    have setup : s'.fs.setup = _ := congrArg Volume.setup shown'
    have layout' : BitmapLayout size home s'.fs.setup :=
      setup ▸ ⟨layout.pos, layout.words, layout.covers, layout.padding, layout.sectors⟩
    refine (markAllocated_leads sound' layout' true grants.pos grants.low ?_).bind
      fun s'' sound'' shown'' => ?_
    · rw [shown']
      exact grants.high
    · rw [← shown', ← shown'']
      exact .of_run rfl sound'' rfl
  · refine ⟨_, _, ?_, Or.inr ⟨rfl, rfl, none⟩⟩
    rw [Session.Leads, Exec.Leads, opened]
    exact (Session.leads_onFs search).bind_error

/-- `free` of a contiguous run. -/
theorem freeRun_leads {s : Session size n} (sound : s.fs.Sound home)
    (layout : BitmapLayout size home s.fs.setup) {run : AllocatedRun} (pos : 0 < run.clusterCount)
    (low : 2 ≤ run.firstCluster)
    (high : run.firstCluster + run.clusterCount ≤ (s.fs.volume home).endCluster) :
    Session.Leads home (free (.contiguous run.firstCluster run.clusterCount)) s (.ok ())
      ((s.fs.volume home).mark run false) :=
  markAllocated_leads sound layout false pos low high

/-- Whether the hint of a chain is a cluster id that `allocate` can start from. -/
def InRange (chain : StoredChain) : Prop := ∀ hint, hintOf chain = some hint → 2 ≤ hint ∧ hint < 2 ^ 32

/-- The states that allocations and releases lead to, with the runs that are
live: handed out and not yet freed. Calls that fail are part of the run. -/
inductive Reached (start : Session size n) : Session size n → List AllocatedRun → Prop
  | start : Reached start start []
  | allocate {s s' : Session size n} {live : List AllocatedRun} {chain : StoredChain} {count : Nat}
      {run : AllocatedRun} (before : Reached start s live) (range : InRange chain) (wanted : 0 < count)
      (call : Allocator.allocate chain count s = (.ok run, s')) : Reached start s' (run :: live)
  | failed {s s' : Session size n} {live : List AllocatedRun} {chain : StoredChain} {count : Nat}
      {e : Fault ExFatError} (before : Reached start s live) (range : InRange chain) (wanted : 0 < count)
      (call : Allocator.allocate chain count s = (.error e, s')) : Reached start s' live
  | free {s s' : Session size n} {live : List AllocatedRun} {run : AllocatedRun}
      {r : Except (Fault ExFatError) Unit} (before : Reached start s live) (member : run ∈ live)
      (call : Allocator.free (.contiguous run.firstCluster run.clusterCount) s = (r, s')) :
      Reached start s' (live.erase run)

theorem Reached.released {start s : Session size n} {live : List AllocatedRun} {run : AllocatedRun}
    (before : Reached start s live) (member : run ∈ live) :
    Reached start (Allocator.free (.contiguous run.firstCluster run.clusterCount) s).2 (live.erase run) :=
  before.free member rfl

/-- What holds after every run from a volume `v`: the set bits are those that
were set at first and those of the live runs, and no cluster counts twice. -/
structure Accounts (home : Nat → CacheKind) (v : Volume size) (s : Session size n)
    (live : List AllocatedRun) : Prop where
  sound : s.fs.Sound home
  bitmap : s.fs.setup.bitmap = v.setup.bitmap
  search : 2 ≤ s.fs.setup.nextSearchCluster
  runs : ∀ run ∈ live, 0 < run.clusterCount ∧ 2 ≤ run.firstCluster ∧
    run.firstCluster + run.clusterCount ≤ v.endCluster
  disjoint : live.Pairwise fun a b => ∀ c, a.Has c → ¬ b.Has c
  fresh : ∀ run ∈ live, ∀ c, run.Has c → v.IsFree c
  bits : ∀ c, v.InHeap c → ((s.fs.volume home).IsFree c ↔ v.IsFree c ∧ ∀ run ∈ live, ¬ run.Has c)

theorem Accounts.endCluster {v : Volume size} {s : Session size n} {live : List AllocatedRun}
    (accounts : Accounts home v s live) : (s.fs.volume home).endCluster = v.endCluster := by
  rw [Volume.endCluster, Volume.endCluster, FileSystem.volume_setup, accounts.bitmap]

theorem Accounts.low {v : Volume size} {s : Session size n} {live : List AllocatedRun}
    (accounts : Accounts home v s live) {chain : StoredChain} (range : InRange chain) :
    2 ≤ (hintOf chain).getD s.fs.setup.nextSearchCluster := by
  rcases hint : hintOf chain with _ | h
  · exact accounts.search
  · exact (range h hint).1

/-- The outcome of an allocation in a state with its accounts in order. -/
theorem Accounts.allocate_cases {v : Volume size} (layout : BitmapLayout size home v.setup)
    {s : Session size n} {live : List AllocatedRun} (accounts : Accounts home v s live)
    {chain : StoredChain} (range : InRange chain) {count : Nat} (wanted : 0 < count) :
    (∃ run s', Allocator.allocate chain count s = (.ok run, s') ∧ s'.fs.Sound home ∧
      s'.fs.volume home = ((s.fs.volume home).searchAt (run.firstCluster + run.clusterCount)).mark run true ∧
      (s.fs.volume home).Grants (policyOf chain)
        ((hintOf chain).getD s.fs.setup.nextSearchCluster) count run) ∨
    (∃ s', Allocator.allocate chain count s = (.error (.error .diskFull), s') ∧ s'.fs.Sound home ∧
      s'.fs.volume home = s.fs.volume home ∧ ∀ c, v.InHeap c → ¬ (s.fs.volume home).IsFree c) := by
  obtain ⟨r, w, ⟨s', call, sound, shown⟩, result⟩ := allocate_leads accounts.sound
    (layout.of_bitmap accounts.bitmap) wanted (accounts.low range) fun hint same => (range hint same).2
  rcases result with ⟨run, rfl, rfl, grants⟩ | ⟨rfl, rfl, none⟩
  · exact Or.inl ⟨run, s', call, sound, shown, grants⟩
  · refine Or.inr ⟨s', call, sound, shown, fun c inHeap => none c ⟨inHeap.1, ?_⟩⟩
    rw [accounts.endCluster]
    exact inHeap.2

theorem Accounts.start {s : Session size n} (sound : s.fs.Sound home)
    (search : 2 ≤ s.fs.setup.nextSearchCluster) : Accounts home (s.fs.volume home) s [] where
  sound := sound
  bitmap := rfl
  search := search
  runs := by simp
  disjoint := .nil
  fresh := by simp
  bits := by simp

/-- A granted run enters the accounts. -/
theorem Accounts.granted {v : Volume size} (layout : BitmapLayout size home v.setup)
    {s s' : Session size n} {live : List AllocatedRun} (accounts : Accounts home v s live)
    {policy : SearchPolicy} {hint count : Nat} {run : AllocatedRun} (sound : s'.fs.Sound home)
    (shown : s'.fs.volume home =
      ((s.fs.volume home).searchAt (run.firstCluster + run.clusterCount)).mark run true)
    (grants : (s.fs.volume home).Grants policy hint count run) : Accounts home v s' (run :: live) := by
  have setup : s'.fs.setup = _ := congrArg Volume.setup shown
  rw [Volume.mark_setup] at setup
  have high := grants.high
  rw [accounts.endCluster] at high
  have inHeap : ∀ c, run.Has c → v.InHeap c := fun c has =>
    ⟨grants.low.trans has.1, lt_of_lt_of_le has.2 high⟩
  have wasFree : ∀ c, run.Has c → v.IsFree c ∧ ∀ other ∈ live, ¬ other.Has c := fun c has =>
    (accounts.bits c (inHeap c has)).mp (grants.free c has)
  refine ⟨sound, ?_, ?_, ?_, ?_, ?_, ?_⟩
  · rw [setup]
    exact accounts.bitmap
  · rw [setup]
    exact grants.low.trans (Nat.le_add_right _ _)
  · intro other member
    rcases List.mem_cons.mp member with rfl | member
    · exact ⟨grants.pos, grants.low, high⟩
    · exact accounts.runs other member
  · exact List.pairwise_cons.mpr ⟨fun other member c has => (wasFree c has).2 other member,
      accounts.disjoint⟩
  · intro other member c has
    rcases List.mem_cons.mp member with rfl | member
    · exact (wasFree c has).1
    · exact accounts.fresh other member c has
  · intro c heap
    rw [shown, Volume.IsFree, Volume.isFreeCluster_mark layout.pos _ grants.low true heap.1]
    change ((if run.Has c then !true else (s.fs.volume home).isFreeCluster c) = true) ↔ _
    by_cases has : run.Has c
    · simp [has]
    · rw [if_neg has]
      refine (accounts.bits c heap).trans ?_
      simp [has]

/-- A freed run leaves the accounts. -/
theorem Accounts.released {v : Volume size} (layout : BitmapLayout size home v.setup)
    {s s' : Session size n} {live : List AllocatedRun} (accounts : Accounts home v s live)
    {run : AllocatedRun} (member : run ∈ live) (sound : s'.fs.Sound home)
    (shown : s'.fs.volume home = (s.fs.volume home).mark run false) :
    Accounts home v s' (live.erase run) := by
  have setup : s'.fs.setup = _ := congrArg Volume.setup shown
  rw [Volume.mark_setup] at setup
  obtain ⟨_, low, _⟩ := accounts.runs run member
  have kept : ∀ other ∈ live.erase run, other ∈ live := fun other => List.mem_of_mem_erase
  -- the live runs are `run` and the rest, which has no cluster of it
  have order : (run :: live.erase run).Perm live := (List.perm_cons_erase member).symm
  have apart : (run :: live.erase run).Pairwise fun a b => ∀ c, a.Has c → ¬ b.Has c :=
    (order.symm.pairwise_iff fun apart c hasB hasA => apart c hasA hasB).mp accounts.disjoint
  obtain ⟨others, rest⟩ := List.pairwise_cons.mp apart
  refine ⟨sound, ?_, ?_, fun other late => accounts.runs other (kept other late), rest,
    fun other late => accounts.fresh other (kept other late), ?_⟩
  · rw [setup]
    exact accounts.bitmap
  · rw [setup]
    exact accounts.search
  · intro c heap
    rw [shown, Volume.IsFree, Volume.isFreeCluster_mark layout.pos _ low false heap.1]
    change ((if run.Has c then !false else (s.fs.volume home).isFreeCluster c) = true) ↔ _
    by_cases has : run.Has c
    · rw [if_pos has]
      refine ⟨fun _ => ⟨accounts.fresh run member c has, fun other late => others other late c has⟩, fun _ => rfl⟩
    · rw [if_neg has]
      refine (accounts.bits c heap).trans
        (and_congr_right fun _ => ⟨fun absent other late => absent other (kept other late),
        fun absent other held => ?_⟩)
      rcases List.mem_cons.mp (order.mem_iff.mpr held) with rfl | late
      · exact has
      · exact absent other late

theorem Reached.accounts {start : Session size n} (sound : start.fs.Sound home)
    (layout : BitmapLayout size home start.fs.setup) (search : 2 ≤ start.fs.setup.nextSearchCluster)
    {s : Session size n} {live : List AllocatedRun} (reached : Reached start s live) :
    Accounts home (start.fs.volume home) s live := by
  induction reached with
  | start => exact .start sound search
  | allocate before range wanted call ih =>
    rcases ih.allocate_cases layout range wanted with ⟨run, s', call', sound', shown, grants⟩ |
      ⟨s', call', _⟩
    · cases call.symm.trans call'
      exact ih.granted layout sound' shown grants
    · cases call.symm.trans call'
  | failed before range wanted call ih =>
    rcases ih.allocate_cases layout range wanted with ⟨run, s', call', _⟩ | ⟨s', call', sound', shown, _⟩
    · cases call.symm.trans call'
    · have setup : s'.fs.setup = _ := congrArg Volume.setup shown
      cases call.symm.trans call'
      exact ⟨sound', setup ▸ ih.bitmap, setup ▸ ih.search, ih.runs, ih.disjoint, ih.fresh,
        by rw [shown]; exact ih.bits⟩
  | @free s s' live run r before member call ih =>
    obtain ⟨pos, low, high⟩ := ih.runs run member
    rw [← ih.endCluster] at high
    obtain ⟨t, call', sound', shown⟩ := freeRun_leads ih.sound (layout.of_bitmap ih.bitmap) pos low high
    cases call.symm.trans call'
    exact ih.released layout member sound' shown

/-- The allocator hands out each cluster once. In every state that allocations and releases lead
to, the live runs are disjoint from each other and from what was allocated at first, and the
clusters in use are these two kinds; a successful `allocate` grants free clusters of the heap,
at most as many as asked for, and sets exactly their bits; and it ends in `DiskFull` exactly
when no cluster of the heap is free. -/
theorem allocate_accounts {start : Session size n} (sound : start.fs.Sound home)
    (layout : BitmapLayout size home start.fs.setup) (search : 2 ≤ start.fs.setup.nextSearchCluster)
    {s : Session size n} {live : List AllocatedRun} (reached : Reached start s live) :
    live.Pairwise (fun a b => ∀ c, a.Has c → ¬ b.Has c) ∧
    (∀ run ∈ live, ∀ c, run.Has c → (start.fs.volume home).IsFree c ∧ ¬ (s.fs.volume home).IsFree c) ∧
    (∀ c, (start.fs.volume home).InHeap c →
      ((s.fs.volume home).IsFree c ↔ (start.fs.volume home).IsFree c ∧ ∀ run ∈ live, ¬ run.Has c)) ∧
    ∀ chain count, InRange chain → 0 < count →
      (∀ run s', Allocator.allocate chain count s = (.ok run, s') →
        0 < run.clusterCount ∧ run.clusterCount ≤ count ∧
        (∀ c, run.Has c → 2 ≤ c ∧ c < 2 + start.fs.setup.bitmap.clusterCount ∧ (s.fs.volume home).IsFree c) ∧
        ∀ c, (start.fs.volume home).InHeap c →
          ((s'.fs.volume home).IsFree c ↔ (s.fs.volume home).IsFree c ∧ ¬ run.Has c)) ∧
      ((∃ run s', Allocator.allocate chain count s = (.ok run, s')) ∨
        (∃ s', Allocator.allocate chain count s = (.error (.error .diskFull), s'))) ∧
      ((∃ s', Allocator.allocate chain count s = (.error (.error .diskFull), s')) ↔
        ∀ c, 2 ≤ c → c < 2 + start.fs.setup.bitmap.clusterCount → ¬ (s.fs.volume home).IsFree c) := by
  have accounts := reached.accounts sound layout search
  refine ⟨accounts.disjoint, fun run member c has => ⟨accounts.fresh run member c has, fun free => ?_⟩,
    accounts.bits, ?_⟩
  · obtain ⟨_, low, high⟩ := accounts.runs run member
    exact ((accounts.bits c ⟨low.trans has.1, lt_of_lt_of_le has.2 high⟩).mp free).2 run member has
  intro chain count range wanted
  rcases accounts.allocate_cases layout range wanted with ⟨run, s', call, _, shown, grants⟩ |
    ⟨s', call, _, shown, none⟩
  · have high := grants.high
    rw [accounts.endCluster] at high
    refine ⟨fun run' t call' => ?_, Or.inl ⟨run, s', call⟩, ?_⟩
    · cases call.symm.trans call'
      refine ⟨grants.pos, grants.few, fun c has => ⟨grants.low.trans has.1, lt_of_lt_of_le has.2 high,
        grants.free c has⟩, fun c heap => ?_⟩
      rw [shown, Volume.IsFree, Volume.isFreeCluster_mark layout.pos _ grants.low true heap.1]
      change ((if run.Has c then !true else (s.fs.volume home).isFreeCluster c) = true) ↔ _
      by_cases has : run.Has c <;> simp [has, Volume.IsFree]
    · constructor
      · rintro ⟨t, call'⟩
        cases call.symm.trans call'
      · intro full
        have has : run.Has run.firstCluster := ⟨le_rfl, Nat.lt_add_of_pos_right grants.pos⟩
        exact absurd (grants.free _ has) (full _ grants.low (lt_of_lt_of_le has.2 high))
  · refine ⟨fun run' t call' => ?_, Or.inr ⟨s', call⟩, ⟨fun _ c low high => none c ⟨low, high⟩,
      fun _ => ⟨s', call⟩⟩⟩
    cases call.symm.trans call'

/-- A heap of eight clusters, the first of them taken, with its bitmap in sector 1. -/
def eightClusters : Session 4 1 where
  fs := { FileSystem.new ⟨fun _ i => if i.val = 0 then 1 else 0, [], []⟩ 32 with
    allocator := { bitmap := ⟨1, 1, 8⟩, cache := .new, nextSearchCluster := 2 } }
  touched := .new

def eightHome (s : Nat) : CacheKind := if s = 1 then .bitmap else .data

theorem eightClusters_sound : eightClusters.fs.Sound eightHome :=
  FileSystem.sound_of_new _ rfl fun k => by cases k <;> rfl

theorem eightClusters_layout : BitmapLayout 4 eightHome eightClusters.fs.setup :=
  ⟨by decide, by decide, by decide, by decide, by decide⟩

/-- Two runs of two clusters are allocated, and the first one is released. -/
def reusedClusters : Session 4 1 :=
  (Allocator.free (.contiguous 3 2) (Allocator.allocate .empty 2 (Allocator.allocate .empty 2 eightClusters).2).2).2

theorem reusedClusters_reached : Reached eightClusters reusedClusters [⟨5, 2⟩] := by
  have first : Allocator.allocate .empty 2 eightClusters =
    (.ok ⟨3, 2⟩, (Allocator.allocate .empty 2 eightClusters).2) :=
    Exec.run_of_fst (by decide +kernel)
  have second : Allocator.allocate .empty 2 (Allocator.allocate .empty 2 eightClusters).2 = (.ok ⟨5, 2⟩, _) :=
    Exec.run_of_fst (by decide +kernel)
  have range : InRange .empty := by simp [InRange, hintOf]
  have both := (Reached.start.allocate range (by decide) first).allocate range (by decide) second
  have member : (⟨3, 2⟩ : AllocatedRun) ∈ [⟨5, 2⟩, ⟨3, 2⟩] := by simp
  have released := both.released member
  have rest : ([⟨5, 2⟩, ⟨3, 2⟩] : List AllocatedRun).erase ⟨3, 2⟩ = [⟨5, 2⟩] := by decide
  rw [rest] at released
  dsimp only at released
  rw [reusedClusters]
  exact released

/-- Cluster 3 is free again and cluster 5 is not; nine clusters are asked for,
and some of those that are free are granted. -/
theorem allocate_accounts_reused :
    (reusedClusters.fs.volume eightHome).IsFree 3 ∧ ¬ (reusedClusters.fs.volume eightHome).IsFree 5 ∧
      ∃ run s', Allocator.allocate .empty 9 reusedClusters = (.ok run, s') ∧
        0 < run.clusterCount ∧ run.clusterCount ≤ 9 ∧ ¬ run.Has 5 := by
  obtain ⟨_, live, bits, accounts⟩ :=
    allocate_accounts eightClusters_sound eightClusters_layout (by decide) reusedClusters_reached
  obtain ⟨granted, outcome, full⟩ := accounts .empty 9 (by simp [InRange, hintOf]) (by decide)
  have taken := (live ⟨5, 2⟩ (by simp) 5 ⟨by decide, by decide⟩).2
  have free : (reusedClusters.fs.volume eightHome).IsFree 3 := by
    refine (bits 3 ⟨by decide, by decide⟩).mpr ⟨?_, fun run member has => ?_⟩
    · unfold Volume.IsFree
      decide
    · cases List.mem_singleton.mp member
      exact absurd has.1 (by decide)
  refine ⟨free, taken, ?_⟩
  rcases outcome with ⟨run, s', call⟩ | none
  · obtain ⟨pos, few, own, _⟩ := granted run s' call
    exact ⟨run, s', call, pos, few, fun has => taken (own 5 has).2.2⟩
  · exact absurd free (full.mp none 3 (by decide) (by decide))

end Allocator

end ExFatSlim
