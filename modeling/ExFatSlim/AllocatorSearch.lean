import ExFatSlim.Bitmap

namespace ExFatSlim

theorem u32_of_lt {σ : Type} {x : Nat} (bound : x < 2 ^ 32) (s : σ) : (u32 x : ExFat σ Nat) s = (.ok x, s) := by
  rw [u32, if_pos bound]
  rfl

theorem u32_ok {σ : Type} {x y : Nat} {s s' : σ} (run : (u32 x : ExFat σ Nat) s = (.ok y, s')) :
    x < 2 ^ 32 ∧ y = x ∧ s' = s := by
  rw [u32] at run
  split at run
  · rename_i bound
    cases run
    exact ⟨bound, rfl, rfl⟩
  · cases run

theorem u64_of_lt {σ : Type} {x : Nat} (bound : x < 2 ^ 64) (s : σ) : (u64 x : ExFat σ Nat) s = (.ok x, s) := by
  rw [u64, if_pos bound]
  rfl

theorem u64_of_le {σ : Type} {x : Nat} (bound : 2 ^ 64 ≤ x) (s : σ) :
    (u64 x : ExFat σ Nat) s = (.error .panic, s) := by
  rw [u64, if_neg (Nat.not_lt.mpr bound)]
  rfl

theorem minus_of_lt {σ : Type} {a b : Nat} (bound : a < b) (s : σ) :
    (minus a b : ExFat σ Nat) s = (.error .panic, s) := by
  rw [minus, if_neg (Nat.not_le.mpr bound)]
  rfl

theorem minus_of_le {σ : Type} {a b : Nat} (bound : b ≤ a) (s : σ) :
    (minus a b : ExFat σ Nat) s = (.ok (a - b), s) := by
  simp [minus, bound]

/-- The run of `m` ends with `r` in a sound state that stands for the volume `v`. -/
abbrev FileSystem.Leads {size n : Nat} {α : Type} (home : Nat → CacheKind)
    (m : ExFat (FileSystem size n) α) (fs : FileSystem size n) (r : Except (Fault ExFatError) α)
    (v : Volume size) : Prop :=
  Exec.Leads (FileSystem.Sound home) (FileSystem.volume home) m fs r v

abbrev Session.Leads {size n : Nat} {α : Type} (home : Nat → CacheKind)
    (m : ExFat (Session size n) α) (s : Session size n) (r : Except (Fault ExFatError) α)
    (v : Volume size) : Prop :=
  Exec.Leads (fun s => s.fs.Sound home) (fun s => s.fs.volume home) m s r v

section

variable {size n : Nat} {α : Type} {home : Nat → CacheKind}

theorem FileSystem.leads_read {fs : FileSystem size n} (sound : fs.Sound home) {k : CacheKind} {s : Nat}
    (here : home s = k) :
    FileSystem.Leads home (FileSystem.onCache k (SlotCache.read s)) fs (.ok ((fs.volume home).sectors s))
      (fs.volume home) := by
  obtain ⟨b, fs', run, shown, served, _⟩ := FileSystem.onCache_read sound k s
  rw [shown here] at run
  exact .of_run run served.sound served.volume

theorem Session.leads_onFs {s : Session size n} {m : ExFat (FileSystem size n) α}
    {r : Except (Fault ExFatError) α} {v : Volume size} (run : FileSystem.Leads home m s.fs r v) :
    Session.Leads home (Session.onFs m) s r v :=
  run.zoom fun _ fine shown => ⟨fine, shown⟩

theorem Session.leads_readMut {s : Session size n} (sound : s.fs.Sound home) {k : CacheKind} {t : Nat}
    (here : home t = k) (f : Block size → Block size) :
    Session.Leads home (Session.onCache k (SlotCache.readMut t f)) s
      (.ok (f ((s.fs.volume home).sectors t)))
      ((s.fs.volume home).store t (f ((s.fs.volume home).sectors t))) := by
  obtain ⟨fs', run, wrote, _⟩ := FileSystem.onCache_readMut sound here f
  exact Session.leads_onFs (.of_run run wrote.sound wrote.volume)

theorem Session.leads_insert {s : Session size n} (sound : s.fs.Sound home) (t : TouchedSector) :
    Session.Leads home (Session.insert t) s (.ok ()) (s.fs.volume home) :=
  .of_run rfl sound rfl

end

/-- The part of a well-formed volume that the allocator relies on: the sectors
of the bitmap cover the cluster heap, with all their bits inside `u32`. -/
structure BitmapLayout (size : Nat) (home : Nat → CacheKind) (u : Setup) : Prop where
  pos : 0 < size
  words : 4 ∣ size
  covers : u.bitmap.clusterCount ≤ u.bitmap.numSectors * (size * 8)
  padding : 2 + u.bitmap.numSectors * (size * 8) < 2 ^ 32
  sectors : ∀ i < u.bitmap.numSectors, u.bitmap.firstSector + i < 2 ^ 32 ∧
    home (u.bitmap.firstSector + i) = .bitmap

namespace Volume

variable {size : Nat}

/-- The first cluster id past the heap. -/
def endCluster (v : Volume size) : Nat := 2 + v.setup.bitmap.clusterCount

/-- A cluster of the heap. -/
def InHeap (v : Volume size) (c : Nat) : Prop := 2 ≤ c ∧ c < v.endCluster

def IsFree (v : Volume size) (c : Nat) : Prop := v.isFreeCluster c = true

theorem isFreeCluster_of_sector (pos : 0 < size) (v : Volume size) {sector bit : Nat}
    (small : bit < size * 8) :
    v.isFreeCluster (BitmapPos.firstClusterOf size sector + bit) =
      freeInBlock (v.sectors (v.setup.bitmap.firstSector + sector)) bit := by
  have place : BitmapPos.of size (BitmapPos.firstClusterOf size sector + bit) = ⟨sector, bit⟩ := by
    refine (of_eq_iff pos ?_ small).mpr ?_ <;>
      simp only [BitmapPos.firstClusterOf, BitmapPos.cluster, BitmapPos.clustersPerSector, firstClusterId] <;>
      omega
  rw [isFreeCluster, place]

end Volume

theorem length_chunksOf {size : Nat} (b : Block size) : (chunksOf b).length = size / 4 := by
  simp [chunksOf]

theorem chunksOf_bits {size : Nat} (b : Block size) {k p : Nat} (inside : k < (chunksOf b).length)
    (byte : p / 8 < ((chunksOf b)[k]).length) :
    isFree ((chunksOf b)[k][p / 8]) (p % 8) = freeInBlock b (k * 32 + p) := by
  have quotient : (k * 32 + p) / 8 = k * 4 + p / 8 := by omega
  have rest : (k * 32 + p) % 8 = p % 8 := by omega
  simp only [chunksOf, Block.slice, List.getElem_map, List.getElem_range, freeInBlock, quotient, rest]

namespace Allocator

variable {size n : Nat} {home : Nat → CacheKind} {policy : SearchPolicy}
  {fromCluster endCluster numClusters : Nat}

/-- The scan of `scanSectors` over the sectors of a volume. -/
def scanVolume (policy : SearchPolicy) (fromCluster endCluster numClusters : Nat) (v : Volume size) :
    Nat → Nat → ScanState → ScanFlow
  | 0, _, s => .next s
  | rounds + 1, sector, s =>
    (scanChunks policy fromCluster endCluster numClusters
      (chunksOf (v.sectors (v.setup.bitmap.firstSector + sector))) s).andThen
      (scanVolume policy fromCluster endCluster numClusters v rounds (sector + 1))

theorem scanSectors_leads {v : Volume size} (layout : BitmapLayout size home v.setup) (rounds : Nat) :
    ∀ {fs : FileSystem size n} {sector : Nat} {s : ScanState},
    fs.Sound home → fs.volume home = v → sector + rounds ≤ v.setup.bitmap.numSectors →
    FileSystem.Leads home (scanSectors policy fromCluster endCluster numClusters rounds sector s) fs
      (.ok (scanVolume policy fromCluster endCluster numClusters v rounds sector s)) v := by
  induction rounds with
  | zero =>
    intro fs sector s sound shown _
    exact .of_run rfl sound shown
  | succ rounds ih =>
    intro fs sector s sound shown within
    obtain ⟨bound, here⟩ := layout.sectors sector (by omega)
    have bitmap : fs.allocator.bitmap = v.setup.bitmap := by rw [← shown]; rfl
    have fetch := FileSystem.leads_read sound here
    rw [shown] at fetch
    rw [scanSectors, scanVolume]
    refine .get (.step (u32_of_lt (by rw [bitmap]; exact bound) fs) ?_)
    rw [bitmap]
    refine fetch.bind fun fs' sound' shown' => ?_
    cases scanChunks policy fromCluster endCluster numClusters
        (chunksOf (v.sectors (v.setup.bitmap.firstSector + sector))) s with
    | next s' => exact ih sound' shown' (by omega)
    | leave s' => exact .of_run rfl sound' shown'
    | found run => exact .of_run rfl sound' shown'
    | overflow => exact .of_run rfl sound' shown'

section Rule

variable {v : Volume size} {inv : ScanState → Prop} {found : AllocatedRun → Prop}
  (layout : BitmapLayout size home v.setup)
  (rule : ScanRule v.IsFree policy fromCluster endCluster numClusters inv found)

include layout rule

/-- One sector of the bitmap. -/
theorem scanSector_holds {sector : Nat} (within : sector < v.setup.bitmap.numSectors) {s : ScanState}
    (start : s.clusterId = BitmapPos.firstClusterOf size sector) (holds : inv s) :
    FlowHolds inv found endCluster (BitmapPos.firstClusterOf size (sector + 1))
      (scanChunks policy fromCluster endCluster numClusters
        (chunksOf (v.sectors (v.setup.bitmap.firstSector + sector))) s) := by
  have pos := layout.pos
  have padding := layout.padding
  have width : size / 4 * 32 = size * 8 := by have := layout.words; omega
  have below : (sector + 1) * (size * 8) ≤ v.setup.bitmap.numSectors * (size * 8) :=
    Nat.mul_le_mul_right _ within
  rw [Nat.add_mul, Nat.one_mul] at below
  have first : s.clusterId = sector * (size * 8) + 2 := start
  have upTo : BitmapPos.firstClusterOf size (sector + 1) = s.clusterId +
      (chunksOf (v.sectors (v.setup.bitmap.firstSector + sector))).length * 32 := by
    rw [length_chunksOf, width, first]
    simp only [BitmapPos.firstClusterOf, BitmapPos.cluster, BitmapPos.clustersPerSector, firstClusterId,
      Nat.add_mul]
    omega
  rw [upTo]
  refine scanChunks_spec rule _ ?_ ?_ holds ?_
  · intro chunk member
    simp only [chunksOf, List.mem_map] at member
    obtain ⟨k, _, rfl⟩ := member
    simp
  · rw [length_chunksOf, width]
    omega
  · intro k inside p byte
    have few : p / 8 < 4 := by simpa [chunksOf] using byte
    have small : k * 32 + p < size * 8 := by
      rw [length_chunksOf] at inside
      omega
    rw [chunksOf_bits _ inside byte, Volume.IsFree, start, Nat.add_assoc,
      v.isFreeCluster_of_sector pos small]

theorem scanVolume_holds (rounds : Nat) : ∀ {sector : Nat} {s : ScanState},
    sector + rounds = v.setup.bitmap.numSectors → s.clusterId = BitmapPos.firstClusterOf size sector → inv s →
    FlowHolds inv found endCluster (BitmapPos.firstClusterOf size v.setup.bitmap.numSectors)
      (scanVolume policy fromCluster endCluster numClusters v rounds sector s) := by
  induction rounds with
  | zero =>
    intro sector s last start holds
    refine ⟨holds, ?_⟩
    rw [start, ← last, Nat.add_zero]
  | succ rounds ih =>
    intro sector s last start holds
    refine (scanSector_holds layout rule (by omega) start holds).andThen fun s' holds' here => ?_
    exact ih (by omega) here holds'

end Rule

/-- What a search from a cluster on ends with: a free run, or a full disk
when there is nothing free from there on. -/
def SearchResult (v : Volume size) (policy : SearchPolicy) (fromCluster numClusters : Nat)
    (r : Except (Fault ExFatError) AllocatedRun) : Prop :=
  (∃ run, r = .ok run ∧ FreeRun v.IsFree policy fromCluster v.endCluster numClusters run) ∨
  (r = .error (.error .diskFull) ∧ ∀ c, fromCluster ≤ c → c < v.endCluster → ¬ v.IsFree c)

/-- What the search makes of the outcome of the scan. -/
def concludeScan (policy : SearchPolicy) : ScanFlow → Except (Fault ExFatError) AllocatedRun
  | .overflow => .error .panic
  | .found run => .ok run
  | .next s | .leave s =>
    match closeRun policy s with
    | (some run, _) => .ok run
    | (none, s) =>
      match s.longest with
      | some run => .ok run
      | none => .error (.error .diskFull)

/-- The end of the search, when the whole heap was scanned. -/
theorem concludeScan_fits {v : Volume size} {upTo : Nat} (whole : v.endCluster ≤ upTo) {flow : ScanFlow}
    (fits : FlowHolds (Scanned v.IsFree policy fromCluster v.endCluster numClusters)
      (FreeRun v.IsFree policy fromCluster v.endCluster numClusters) v.endCluster upTo flow) :
    SearchResult v policy fromCluster numClusters (concludeScan policy flow) := by
  have finish : ∀ s, Scanned v.IsFree policy fromCluster v.endCluster numClusters s →
      v.endCluster ≤ s.clusterId →
      SearchResult v policy fromCluster numClusters (concludeScan policy (.next s)) := by
    intro s scanned whole
    rw [concludeScan]
    rcases closeRun_spec scanned with ⟨run, closed, closing, _, fits⟩ |
      ⟨closed, closing, same, none, closed'⟩
    · rw [closing]
      exact Or.inl ⟨run, rfl, fits⟩
    · rw [closing]
      dsimp only
      rcases best : closed.longest with _ | run
      · refine Or.inr ⟨rfl, fun c above below => ?_⟩
        exact closed'.full none best c above (by omega) below
      · exact Or.inl ⟨run, rfl, (closed'.longest run best).2⟩
  cases flow with
  | next s => exact finish s fits.1 (fits.2 ▸ whole)
  | leave s => exact finish s fits.1 fits.2
  | found run => exact Or.inl ⟨run, rfl, fits⟩
  | overflow => exact fits.elim

/-- What a search from a cluster on comes to: there is nothing to search, or every rule that is
true at the start of the scan is true of how it ends. -/
inductive SearchEnds (v : Volume size) (policy : SearchPolicy) (fromCluster numClusters : Nat) :
    Except (Fault ExFatError) AllocatedRun → Prop
  | nothing : (∀ c, fromCluster ≤ c → ¬ c < v.endCluster) →
    SearchEnds v policy fromCluster numClusters (.error (.error .diskFull))
  | scanned {flow : ScanFlow} {start upTo : Nat} : v.endCluster ≤ upTo → start ≤ fromCluster →
      (∀ inv found, ScanRule v.IsFree policy fromCluster v.endCluster numClusters inv found →
        inv ⟨start, none, 0, none⟩ →
        FlowHolds inv found v.endCluster upTo flow) →
      SearchEnds v policy fromCluster numClusters (concludeScan policy flow)

theorem findFreeClustersFrom_ends (policy : SearchPolicy) (numClusters : Nat) {fs : FileSystem size n}
    (sound : fs.Sound home)
    (layout : BitmapLayout size home fs.setup) (low : 2 ≤ fromCluster) :
    ∃ r, FileSystem.Leads home (findFreeClustersFrom fromCluster numClusters policy) fs r (fs.volume home) ∧
      SearchEnds (fs.volume home) policy fromCluster numClusters r := by
  have covers := layout.covers
  have padding := layout.padding
  have pos := layout.pos
  have small := of_bit_lt pos fromCluster
  have place := (of_eq_iff pos low small).mp rfl
  have endCluster : firstClusterId + fs.allocator.bitmap.clusterCount = (fs.volume home).endCluster := rfl
  have bitmap : fs.setup.bitmap = fs.allocator.bitmap := rfl
  rw [bitmap] at covers padding
  simp only [findFreeClustersFrom, if_neg (show ¬ fromCluster < firstClusterId by simp only [firstClusterId]; omega)]
  have fits : firstClusterId + fs.allocator.bitmap.clusterCount < 2 ^ 32 := by
    simp only [firstClusterId]
    omega
  by_cases nothing : (fs.volume home).endCluster ≤ fromCluster ∨
      fs.allocator.bitmap.numSectors ≤ (BitmapPos.of size fromCluster).sector
  · refine ⟨.error (.error .diskFull), ?_, .nothing fun c above below => ?_⟩
    · refine .get (.step (u32_of_lt fits fs) ?_)
      rw [endCluster, if_pos nothing]
      exact (Exec.Leads.raise sound _).bind_error
    · rcases nothing with past | past
      · omega
      · -- the bitmap has no bit for such a cluster
        have reach : fs.allocator.bitmap.numSectors * (size * 8) ≤
            (BitmapPos.of size fromCluster).sector * (size * 8) := Nat.mul_le_mul_right _ past
        rw [← endCluster] at below
        simp only [firstClusterId] at below
        omega
  · have within : (BitmapPos.of size fromCluster).sector < (fs.volume home).setup.bitmap.numSectors := by
      have := (not_or.mp nothing).2
      exact Nat.lt_of_not_le this
    have rounds : (BitmapPos.of size fromCluster).sector +
        (fs.allocator.bitmap.numSectors - (BitmapPos.of size fromCluster).sector) =
        (fs.volume home).setup.bitmap.numSectors := Nat.add_sub_cancel' within.le
    have whole : (fs.volume home).endCluster ≤
        BitmapPos.firstClusterOf size (fs.volume home).setup.bitmap.numSectors := by
      rw [← endCluster]
      simp only [BitmapPos.firstClusterOf, BitmapPos.cluster, BitmapPos.clustersPerSector, firstClusterId,
        FileSystem.volume_setup, bitmap]
      omega
    have start : BitmapPos.firstClusterOf size (BitmapPos.of size fromCluster).sector ≤ fromCluster := by
      have first : BitmapPos.firstClusterOf size (BitmapPos.of size fromCluster).sector =
          (BitmapPos.of size fromCluster).sector * (size * 8) + 2 := rfl
      omega
    refine ⟨_, ?_, .scanned whole start fun inv found rule holds =>
      scanVolume_holds layout rule _ rounds rfl holds⟩
    refine .get (.step (u32_of_lt fits fs) ?_)
    rw [endCluster, if_neg nothing]
    refine (scanSectors_leads layout _ sound rfl rounds.le).bind fun fs' sound' shown' => ?_
    refine .of_run ?_ sound' shown'
    cases scanVolume policy fromCluster (fs.volume home).endCluster numClusters (fs.volume home)
        (fs.allocator.bitmap.numSectors - (BitmapPos.of size fromCluster).sector)
        (BitmapPos.of size fromCluster).sector
        ⟨BitmapPos.firstClusterOf size (BitmapPos.of size fromCluster).sector, none, 0, none⟩ with
    | overflow => rfl
    | found run => rfl
    | next s | leave s =>
      simp only [concludeScan]
      rcases closeRun policy s with ⟨_ | run, closed⟩
      · dsimp only
        rcases closed.longest with _ | run <;> rfl
      · rfl

theorem SearchEnds.fits {v : Volume size} {r : Except (Fault ExFatError) AllocatedRun} (wanted : 0 < numClusters)
    (ends : SearchEnds v policy fromCluster numClusters r) : SearchResult v policy fromCluster numClusters r := by
  cases ends with
  | nothing none_ => exact Or.inr ⟨rfl, fun c above below => absurd below (none_ c above)⟩
  | scanned whole start holds =>
    refine concludeScan_fits whole
      (holds _ _ (freeRun_rule wanted) ⟨by simp, by simp, by simp, fun _ _ c above below _ => ?_⟩)
    dsimp only at below
    omega

theorem findFreeClustersFrom_leads (policy : SearchPolicy) {fs : FileSystem size n} (sound : fs.Sound home)
    (layout : BitmapLayout size home fs.setup) (wanted : 0 < numClusters) (low : 2 ≤ fromCluster) :
    ∃ r, FileSystem.Leads home (findFreeClustersFrom fromCluster numClusters policy) fs r
        (fs.volume home) ∧
      SearchResult (fs.volume home) policy fromCluster numClusters r := by
  obtain ⟨r, run, ends⟩ := findFreeClustersFrom_ends policy numClusters sound layout low
  exact ⟨r, run, ends.fits wanted⟩

end Allocator

end ExFatSlim
