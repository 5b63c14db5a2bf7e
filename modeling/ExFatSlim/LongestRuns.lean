import ExFatSlim.AllocatorRuns

namespace ExFatSlim

section Scan

variable (free : Nat → Prop) (fromCluster endCluster numClusters : Nat)

/-- The first cluster of a range from which on as many clusters as asked for are free. -/
structure FirstFit (first : Nat) : Prop where
  above : fromCluster ≤ first
  below : first + numClusters ≤ endCluster
  allFree : ∀ c, first ≤ c → c < first + numClusters → free c
  least : ∀ a, fromCluster ≤ a → a < first → ∃ c, a ≤ c ∧ c < a + numClusters ∧ ¬ free c

/-- What holds between two bits of a search for a longest run that was not long enough so far:
every window behind it has a cluster that is not free, and so is the one before the run in
progress. -/
structure Hunted (s : ScanState) : Prop where
  edge : ∀ c, fromCluster ≤ c → c + 1 = s.firstCluster.getD s.clusterId → c < endCluster → ¬ free c
  barren : ∀ a, fromCluster ≤ a → a + numClusters ≤ s.clusterId → a + numClusters ≤ endCluster →
    ∃ c, a ≤ c ∧ c < a + numClusters ∧ ¬ free c
  few : ∀ run, s.longest = some run → run.clusterCount < numClusters

variable {free fromCluster endCluster numClusters}

theorem closeRun_longest (s : ScanState) :
    ∃ closed, closeRun .longestRun s = (none, closed) ∧ closed.clusterId = s.clusterId ∧
    closed.firstCluster = none ∧ (closed.longest = s.longest ∨
      ∃ first, s.firstCluster = some first ∧ closed.longest = some ⟨first, s.count⟩) := by
  rcases opening : s.firstCluster with _ | first
  · exact ⟨{ s with firstCluster := none, count := 0 }, by simp [closeRun, opening], rfl, rfl, Or.inl rfl⟩
  · rcases best : s.longest with _ | old
    · exact ⟨{ s with firstCluster := none, count := 0, longest := some ⟨first, s.count⟩ },
        by simp [closeRun, opening, best], rfl, rfl,
        Or.inr ⟨first, rfl, rfl⟩⟩
    · by_cases better : old.clusterCount < s.count
      · exact ⟨{ s with firstCluster := none, count := 0, longest := some ⟨first, s.count⟩ },
          by simp [closeRun, opening, best, better], rfl, rfl, Or.inr ⟨first, rfl, rfl⟩⟩
      · exact ⟨{ s with firstCluster := none, count := 0 }, by simp [closeRun, opening, best, better], rfl,
          rfl, Or.inl best⟩

/-- The longest run stays short when a run that is too short is closed. -/
theorem Hunted.few_closed {s closed : ScanState} (hunted : Hunted free fromCluster endCluster numClusters s)
    (scanned : Scanned free .longestRun fromCluster endCluster numClusters s)
    (best : closed.longest = s.longest ∨ ∃ first, s.firstCluster = some first ∧
      closed.longest = some ⟨first, s.count⟩) :
    ∀ run, closed.longest = some run → run.clusterCount < numClusters := by
  rcases best with same | ⟨first, opening, same⟩
  · rw [same]
    exact hunted.few
  · intro run here
    rw [same] at here
    cases here
    exact (scanned.progress first opening).2.2

/-- Passing over clusters that are not free. -/
theorem Hunted.skip {s : ScanState} {k : Nat} (some_ : 0 < k) (bound : s.clusterId + k < 2 ^ 32)
    (hunted : Hunted free fromCluster endCluster numClusters s)
    (scanned : Scanned free .longestRun fromCluster endCluster numClusters s) (wanted : 0 < numClusters)
    (taken : ∀ c, fromCluster ≤ c → s.clusterId ≤ c → c < s.clusterId + k → c < endCluster → ¬ free c) :
    FlowHolds (Hunted free fromCluster endCluster numClusters)
      (fun run => run.clusterCount = numClusters ∧
        FirstFit free fromCluster endCluster numClusters run.firstCluster) endCluster
      (s.clusterId + k) (match closeRun .longestRun s with
        | (some run, _) => .found run
        | (none, s) => s.advance k) := by
  obtain ⟨closed, closing, same, none_, best⟩ := closeRun_longest s
  have few := hunted.few_closed scanned best
  rw [closing]
  dsimp only
  rw [← same] at bound taken ⊢
  rw [advance_eq bound]
  refine ⟨⟨fun c above last inside => ?_, fun a above behind inside => ?_, few⟩, rfl⟩
  · rw [none_, Option.getD_none] at last
    dsimp only at last
    exact taken c above (by omega) (by omega) inside
  · dsimp only at behind
    by_cases old : a + numClusters ≤ closed.clusterId
    · exact hunted.barren a above (same ▸ old) inside
    · exact ⟨a + numClusters - 1, by omega, by omega, taken _ (by omega) (by omega) (by omega) (by omega)⟩

theorem Hunted.bit {isFree : Bool} {s : ScanState} (bound : s.clusterId + 1 < 2 ^ 32)
    (hunted : Hunted free fromCluster endCluster numClusters s)
    (scanned : Scanned free .longestRun fromCluster endCluster numClusters s) (wanted : 0 < numClusters)
    (bit : isFree = true ↔ free s.clusterId) : FlowHolds (Hunted free fromCluster endCluster numClusters)
      (fun run => run.clusterCount = numClusters ∧
        FirstFit free fromCluster endCluster numClusters run.firstCluster) endCluster
      (s.clusterId + 1) (scanBit .longestRun fromCluster endCluster numClusters isFree s) := by
  have edge := hunted.edge
  obtain ⟨ends, short⟩ := scanned.ends wanted
  refine scanBit_flow bound hunted (fun before => ?_) (fun _ _ zero => ?_) (fun above inside one enough => ?_)
    fun above inside one notYet => ?_
  · refine ⟨fun c above last _ => ?_, fun a above behind _ => ?_, hunted.few⟩
    · simp only [scanned.closed before, Option.getD_none] at last
      omega
    · dsimp only at behind
      omega
  · refine hunted.skip Nat.one_pos bound scanned wanted fun c _ start below _ isFree => ?_
    have here : c = s.clusterId := by omega
    rw [bit.mpr (here ▸ isFree)] at zero
    cases zero
  · have run := scanned.takes wanted above inside (bit.mp one)
    refine ⟨enough, run.above, ?_, fun c low high => run.allFree c low ?_, fun a above smaller => ?_⟩
    · rw [← enough]
      exact run.below
    · dsimp only at high ⊢
      omega
    · dsimp only at smaller
      exact hunted.barren a above (by omega) (by omega)
  · refine ⟨fun c above last inside => edge c above last inside, fun a above behind inside => ?_, hunted.few⟩
    dsimp only at behind
    by_cases old : a + numClusters ≤ s.clusterId
    · exact hunted.barren a above old inside
    · exact ⟨s.firstCluster.getD s.clusterId - 1, by omega, by omega, edge _ (by omega) (by omega) (by omega)⟩

theorem longestRun_rule (wanted : 0 < numClusters) : ScanRule free .longestRun fromCluster endCluster numClusters
    (fun s => Scanned free .longestRun fromCluster endCluster numClusters s ∧
      Hunted free fromCluster endCluster numClusters s)
    (fun run => FreeRun free .longestRun fromCluster endCluster numClusters run ∧
      run.clusterCount = numClusters ∧ FirstFit free fromCluster endCluster numClusters run.firstCluster) where
  bit bound both bit := (scanBit_spec bound both.1 wanted bit).and (both.2.bit bound both.1 wanted bit)
  skip some_ bound both taken := (closeRun_flow bound both.1 taken).and (both.2.skip some_ bound both.1 wanted taken)

/-- No run of a search is empty, whatever number of clusters it asks for. -/
structure Positive (s : ScanState) : Prop where
  progress : ∀ first, s.firstCluster = some first → 0 < s.count
  longest : ∀ run, s.longest = some run → 0 < run.clusterCount

theorem Positive.closed {s closed : ScanState} (positive : Positive s)
    (best : closed.longest = s.longest ∨ ∃ first, s.firstCluster = some first ∧
      closed.longest = some ⟨first, s.count⟩) :
    ∀ run, closed.longest = some run → 0 < run.clusterCount := by
  rcases best with same | ⟨first, opening, same⟩
  · rw [same]
    exact positive.longest
  · intro run here
    rw [same] at here
    cases here
    exact positive.progress first opening

theorem positive_rule :
    ScanRule free .longestRun fromCluster endCluster numClusters Positive (fun run => 0 < run.clusterCount) := by
  have skip : ∀ {s : ScanState} {k : Nat}, s.clusterId + k < 2 ^ 32 → Positive s →
      FlowHolds Positive (fun run => 0 < run.clusterCount) endCluster (s.clusterId + k)
        (match closeRun .longestRun s with
        | (some run, _) => .found run
        | (none, s) => s.advance k) := by
    intro s k bound positive
    obtain ⟨closed, closing, same, none_, best⟩ := closeRun_longest s
    have longest := positive.closed best
    rw [closing]
    dsimp only
    rw [← same] at bound ⊢
    rw [advance_eq bound]
    exact ⟨⟨by simp [none_], longest⟩, rfl⟩
  refine ⟨fun {isFree s} bound positive _ => ?_, fun _ bound positive _ => skip bound positive⟩
  refine scanBit_flow bound positive (fun _ => ?_) (fun _ _ _ => skip bound positive) (fun _ _ _ _ => Nat.succ_pos _)
    fun _ _ _ _ => ?_
  · exact ⟨positive.progress, positive.longest⟩
  · exact ⟨fun _ _ => Nat.succ_pos _, positive.longest⟩

theorem FirstFit.unique {first first' : Nat} (fit : FirstFit free fromCluster endCluster numClusters first)
    (fit' : FirstFit free fromCluster endCluster numClusters first') : first = first' := by
  rcases Nat.lt_trichotomy first first' with before | same | after
  · obtain ⟨c, low, high, taken⟩ := fit'.least first fit.above before
    exact absurd (fit.allFree c low high) taken
  · exact same
  · obtain ⟨c, low, high, taken⟩ := fit.least first' fit'.above after
    exact absurd (fit'.allFree c low high) taken

end Scan

namespace Allocator

variable {size n : Nat} {home : Nat → CacheKind} {fromCluster numClusters : Nat} {v : Volume size}
  {r : Except (Fault ExFatError) AllocatedRun}

/-- The search returns the first run that is long enough, or the heap has none from there on and
it returns a shorter one, or it finds nothing free. -/
inductive LongestEnds (v : Volume size) (fromCluster numClusters : Nat) :
    Except (Fault ExFatError) AllocatedRun → Prop
  | fits {first : Nat} : FirstFit v.IsFree fromCluster v.endCluster numClusters first →
      LongestEnds v fromCluster numClusters (.ok ⟨first, numClusters⟩)
  | short {run : AllocatedRun} :
    run.clusterCount < numClusters → FreeRun v.IsFree .longestRun fromCluster v.endCluster numClusters run →
      (∀ first, ¬ FirstFit v.IsFree fromCluster v.endCluster numClusters first) →
      LongestEnds v fromCluster numClusters (.ok run)
  | full : (∀ c, fromCluster ≤ c → c < v.endCluster → ¬ v.IsFree c) →
      LongestEnds v fromCluster numClusters (.error (.error .diskFull))

theorem SearchEnds.longest (wanted : 0 < numClusters) (ends : SearchEnds v .longestRun fromCluster numClusters r) :
    LongestEnds v fromCluster numClusters r := by
  cases ends with
  | nothing none_ => exact .full fun c above below => absurd below (none_ c above)
  | @scanned flow start upTo whole first holds =>
    have empty : Scanned v.IsFree .longestRun fromCluster v.endCluster numClusters ⟨start, none, 0, none⟩ :=
      ⟨by simp, by simp, by simp, fun _ _ c above below _ => by dsimp only at below; omega⟩
    have nowhere : Hunted v.IsFree fromCluster v.endCluster numClusters ⟨start, none, 0, none⟩ :=
      ⟨fun c above last _ => by simp only [Option.getD_none] at last; omega,
        fun a above behind _ => by dsimp only at behind; omega, by simp⟩
    have flowed := holds _ _ (longestRun_rule wanted) ⟨empty, nowhere⟩
    -- the end of the scan when it found no run that is long enough
    have finish : ∀ s, Scanned v.IsFree .longestRun fromCluster v.endCluster numClusters s →
        Hunted v.IsFree fromCluster v.endCluster numClusters s → v.endCluster ≤ s.clusterId →
        LongestEnds v fromCluster numClusters (concludeScan .longestRun (.next s)) := by
      intro s scanned hunted last
      have none_ : ∀ first, ¬ FirstFit v.IsFree fromCluster v.endCluster numClusters first := by
        intro first fit
        obtain ⟨c, low, high, taken⟩ := hunted.barren first fit.above (fit.below.trans last) fit.below
        exact taken (fit.allFree c low high)
      have result : SearchResult v .longestRun fromCluster numClusters (concludeScan .longestRun (.next s)) :=
        concludeScan_fits last ⟨scanned, rfl⟩
      obtain ⟨closed, closing, _, _, best⟩ := closeRun_longest s
      have few := hunted.few_closed scanned best
      rw [concludeScan, closing] at result ⊢
      dsimp only at result ⊢
      rcases longest : closed.longest with _ | run
      · rw [longest] at result
        rcases result with ⟨_, ok, _⟩ | ⟨_, nothing⟩
        · cases ok
        · exact .full nothing
      · rw [longest] at result
        rcases result with ⟨_, ok, fits⟩ | ⟨error, _⟩
        · cases ok
          exact .short (few run longest) fits none_
        · cases error
    cases flow with
    | next s => exact finish s flowed.1.1 flowed.1.2 (flowed.2 ▸ whole)
    | leave s => exact finish s flowed.1.1 flowed.1.2 flowed.2
    | found run =>
      obtain ⟨first, count⟩ := run
      obtain ⟨_, rfl, fit⟩ := flowed
      exact .fits fit
    | overflow => exact flowed.elim

theorem SearchEnds.positive {run : AllocatedRun} (ends : SearchEnds v .longestRun fromCluster numClusters (.ok run)) :
    0 < run.clusterCount := by
  generalize same : (Except.ok run : Except (Fault ExFatError) AllocatedRun) = r at ends
  cases ends with
  | nothing _ => cases same
  | @scanned flow start upTo whole first holds =>
    have flowed := holds _ _ positive_rule ⟨by simp, by simp⟩
    have finish : ∀ s, Positive s → Except.ok run = concludeScan .longestRun (.next s) → 0 < run.clusterCount := by
      intro s positive same
      obtain ⟨closed, closing, _, _, best⟩ := closeRun_longest s
      have longest := positive.closed best
      rw [concludeScan, closing] at same
      dsimp only at same
      split at same
      · rename_i run' here
        cases same
        exact longest _ here
      · cases same
    cases flow with
    | next s => exact finish s flowed.1 same
    | leave s => exact finish s flowed.1 same
    | found run' =>
      cases same
      exact flowed
    | overflow => cases same

end Allocator

/-- Where a search for `numClusters` clusters in a row finds them: after the place that it
starts at or, when there is nothing free from there on, after the start of the heap. -/
def Volume.Fitting {size : Nat} (v : Volume size) (numClusters first : Nat) : Prop :=
  FirstFit v.IsFree v.setup.nextSearchCluster v.endCluster numClusters first ∨
    (∀ c, v.setup.nextSearchCluster ≤ c → c < v.endCluster → ¬ v.IsFree c) ∧
      FirstFit v.IsFree firstClusterId v.endCluster numClusters first

theorem Volume.Fitting.low {size : Nat} {v : Volume size} {numClusters first : Nat}
    (fitting : v.Fitting numClusters first)
    (search : 2 ≤ v.setup.nextSearchCluster) : 2 ≤ first ∧ first + numClusters ≤ v.endCluster ∧
      ∀ c, first ≤ c → c < first + numClusters → v.IsFree c := by
  rcases fitting with fit | ⟨_, fit⟩
  · exact ⟨search.trans fit.above, fit.below, fit.allFree⟩
  · exact ⟨fit.above, fit.below, fit.allFree⟩

theorem Volume.Fitting.unique {size : Nat} {v : Volume size} {numClusters first first' : Nat}
    (wanted : 0 < numClusters)
    (fitting : v.Fitting numClusters first) (fitting' : v.Fitting numClusters first') : first = first' := by
  have clash : ∀ {a}, FirstFit v.IsFree v.setup.nextSearchCluster v.endCluster numClusters a →
      (∀ c, v.setup.nextSearchCluster ≤ c → c < v.endCluster → ¬ v.IsFree c) → False := fun fit none_ =>
    none_ _ fit.above (by have below := fit.below; omega) (fit.allFree _ le_rfl (by omega))
  rcases fitting with fit | ⟨none_, fit⟩ <;> rcases fitting' with fit' | ⟨none_', fit'⟩
  · exact fit.unique fit'
  · exact (clash fit none_').elim
  · exact (clash fit' none_).elim
  · exact fit.unique fit'

namespace Allocator

variable {size n : Nat} {home : Nat → CacheKind} {numClusters : Nat}

theorem onDiskFull_of_ne {α : Type} {m other : ExFat (FileSystem size n) α} {fs fs' : FileSystem size n}
    {r : Except (Fault ExFatError) α} (run : m fs = (r, fs')) (some_ : r ≠ .error (.error .diskFull)) :
    onDiskFull m other fs = (r, fs') := by
  rw [onDiskFull, run]
  split
  · rename_i same
    cases same
    exact absurd rfl some_
  · rfl

theorem findWrapping_longest {fs : FileSystem size n} (sound : fs.Sound home)
    (layout : BitmapLayout size home fs.setup)
    (wanted : 0 < numClusters) (low : 2 ≤ fs.setup.nextSearchCluster) : ∃ r,
      FileSystem.Leads home (findWrapping fs.setup.nextSearchCluster numClusters .longestRun) fs r (fs.volume home) ∧
      ((∃ first, r = .ok ⟨first, numClusters⟩ ∧ (fs.volume home).Fitting numClusters first) ∨
        (∀ first, ¬ (fs.volume home).Fitting numClusters first) ∧ ∀ run, r = .ok run → run.clusterCount <
          numClusters) := by
  obtain ⟨r, search, ends⟩ := findFreeClustersFrom_ends .longestRun numClusters sound layout low
  have result := ends.longest wanted
  -- the search from the hint decides, unless it finds nothing free at all
  have decided : r ≠ .error (.error .diskFull) →
    ((∃ first, r = .ok ⟨first, numClusters⟩ ∧ (fs.volume home).Fitting numClusters first) ∨
      (∀ first, ¬ (fs.volume home).Fitting numClusters first) ∧ ∀ run, r = .ok run → run.clusterCount <
        numClusters) := by
    intro some_
    cases result with
    | fits fit => exact Or.inl ⟨_, rfl, Or.inl fit⟩
    | @short run few found none_ =>
      refine Or.inr ⟨?_, fun _ same => by cases same; exact few⟩
      rintro first (fit | ⟨nothing, _⟩)
      · exact none_ first fit
      · have pos := found.pos
        have below := found.below
        exact nothing run.firstCluster found.above (by omega) (found.allFree _ le_rfl (by omega))
    | full _ => exact absurd rfl some_
  unfold findWrapping
  by_cases again : firstClusterId < fs.setup.nextSearchCluster
  · rw [if_pos again]
    obtain ⟨fs', runs, sound', shown'⟩ := search
    by_cases full : r = .error (.error .diskFull)
    · subst full
      have setup : fs'.setup = fs.setup := congrArg Volume.setup shown'
      have nothing : ∀ c, fs.setup.nextSearchCluster ≤ c → c < (fs.volume home).endCluster →
          ¬ (fs.volume home).IsFree c := by
        cases result with
        | full nothing => exact nothing
      obtain ⟨r, second, ends⟩ := findFreeClustersFrom_ends .longestRun numClusters sound' (setup ▸ layout)
        (show 2 ≤ firstClusterId from le_rfl)
      rw [shown'] at second ends
      have hinted : ∀ first,
        ¬ FirstFit (fs.volume home).IsFree fs.setup.nextSearchCluster
          (fs.volume home).endCluster numClusters first := by
        intro first fit
        have below := fit.below
        exact nothing first fit.above (by omega) (fit.allFree first le_rfl (by omega))
      refine ⟨r, ?_, ?_⟩
      · obtain ⟨fs'', runs', sound'', shown''⟩ := second
        refine .of_run ?_ sound'' shown''
        rw [onDiskFull, runs]
        exact runs'
      · cases ends.longest wanted with
        | fits fit => exact Or.inl ⟨_, rfl, Or.inr ⟨nothing, fit⟩⟩
        | short few found none_ =>
          refine Or.inr ⟨?_, fun _ same => by cases same; exact few⟩
          rintro first (fit | ⟨_, fit⟩)
          · exact hinted first fit
          · exact none_ first fit
        | full none_ =>
          refine Or.inr ⟨?_, fun _ same => by cases same⟩
          rintro first (fit | ⟨_, fit⟩)
          · exact hinted first fit
          · have below := fit.below
            exact none_ first fit.above (by omega) (fit.allFree first le_rfl (by omega))
    · exact ⟨r, .of_run (onDiskFull_of_ne runs full) sound' shown', decided full⟩
  · rw [if_neg again]
    have same : fs.setup.nextSearchCluster = firstClusterId := by simp only [firstClusterId] at again ⊢; omega
    refine ⟨r, search, ?_⟩
    by_cases full : r = .error (.error .diskFull)
    · subst full
      refine Or.inr ⟨?_, fun _ same => by cases same⟩
      have nothing : ∀ c, fs.setup.nextSearchCluster ≤ c → c < (fs.volume home).endCluster →
          ¬ (fs.volume home).IsFree c := by
        cases result with
        | full nothing => exact nothing
      rintro first (fit | ⟨_, fit⟩) <;> have below := fit.below
      · exact nothing first fit.above (by omega) (fit.allFree first le_rfl (by omega))
      · exact nothing first (same ▸ fit.above) (by omega) (fit.allFree first le_rfl (by omega))
    · exact decided full

/-- The search of a file that is copied: it finds the clusters, or whatever it returns has another length. -/
theorem findFreeClusters_longest {fs : FileSystem size n} (sound : fs.Sound home)
    (layout : BitmapLayout size home fs.setup)
    (wanted : 0 < numClusters) (low : 2 ≤ fs.setup.nextSearchCluster) :
    (∃ first, (fs.volume home).Fitting numClusters first ∧
      FileSystem.Leads home (findFreeClusters none numClusters .longestRun) fs
      (.ok ⟨first, numClusters⟩) ((fs.volume home).searchAt (first + numClusters))) ∨
    (∀ first, ¬ (fs.volume home).Fitting numClusters first) ∧
      ∀ run fs', findFreeClusters none numClusters .longestRun fs = (.ok run, fs') → run.clusterCount <
        numClusters := by
  obtain ⟨r, search, ⟨first, rfl, fitting⟩ | ⟨none_, few⟩⟩ := findWrapping_longest sound layout wanted low
  · refine Or.inl ⟨first, fitting, ?_⟩
    have padding := layout.padding
    have covers := layout.covers
    have high := (fitting.low low).2.1
    simp only [Volume.endCluster, FileSystem.volume_setup] at high
    rw [findFreeClusters]
    refine .get (search.bind fun fs' sound' shown' => ?_)
    refine .step (u32_of_lt (by dsimp only; omega) fs') ?_
    refine (searchAt_leads sound' _).bind fun fs'' sound'' shown'' => ?_
    rw [← shown', ← shown'']
    exact .pure sound'' _
  · refine Or.inr ⟨none_, fun run fs' call => ?_⟩
    rw [findFreeClusters, Exec.bind_of_ok (Exec.get_apply fs)] at call
    obtain ⟨run', fs₁, found, rest⟩ := Exec.bind_eq_ok.mp call
    obtain ⟨_, found', _⟩ := search
    obtain ⟨next, fs₂, _, rest⟩ := Exec.bind_eq_ok.mp rest
    obtain ⟨_, fs₃, _, rest⟩ := Exec.bind_eq_ok.mp rest
    cases rest
    exact few run (Prod.mk.inj (found'.symm.trans found)).1

/-- A search for no clusters at all never returns an empty run. -/
theorem findFreeClusters_none {fs fs' : FileSystem size n} (sound : fs.Sound home)
    (layout : BitmapLayout size home fs.setup)
    (low : 2 ≤ fs.setup.nextSearchCluster) {run : AllocatedRun}
    (call : findFreeClusters none 0 .longestRun fs = (.ok run, fs')) : 0 < run.clusterCount := by
  rw [findFreeClusters, Exec.bind_of_ok (Exec.get_apply fs)] at call
  obtain ⟨run', fs₁, found, rest⟩ := Exec.bind_eq_ok.mp call
  obtain ⟨next, fs₂, _, rest⟩ := Exec.bind_eq_ok.mp rest
  obtain ⟨_, fs₃, _, rest⟩ := Exec.bind_eq_ok.mp rest
  cases rest
  obtain ⟨r, ⟨fs₄, search, sound', shown'⟩, ends⟩ := findFreeClustersFrom_ends .longestRun 0 sound layout low
  rw [Option.getD_none, findWrapping] at found
  split at found
  · rw [onDiskFull, show findFreeClustersFrom fs.allocator.nextSearchCluster 0 .longestRun fs =
      (r, fs₄) from search] at found
    split at found
    · rename_i same
      cases same
      have setup : fs₄.setup = fs.setup := congrArg Volume.setup shown'
      obtain ⟨r', ⟨fs₅, again, _⟩, ends'⟩ := findFreeClustersFrom_ends .longestRun 0 sound' (setup ▸ layout)
        (show 2 ≤ firstClusterId from le_rfl)
      cases again.symm.trans found
      exact ends'.positive
    · cases found
      exact ends.positive
  · cases (show findFreeClustersFrom fs.allocator.nextSearchCluster 0 .longestRun fs =
      (r, fs₄) from search).symm.trans found
    exact ends.positive

end Allocator

end ExFatSlim
