import ExFatSlim.LongestRuns
import ExFatSlim.Lib.BitRuns

namespace ExFatSlim

def AllocatedRun.ofPair (run : Nat × Nat) : AllocatedRun := ⟨run.1, run.2⟩

/-- The first clusters of a run, as many as asked for. -/
def AllocatedRun.cut (numClusters : Nat) (run : AllocatedRun) : AllocatedRun :=
  ⟨run.firstCluster, min numClusters run.clusterCount⟩

/-- The maximal free runs from a cluster on, bit by bit. -/
def Volume.freeRuns {size : Nat} (v : Volume size) (fromCluster : Nat) : List AllocatedRun :=
  (bitRuns fromCluster ((List.range' fromCluster (v.endCluster - fromCluster)).map v.isFreeCluster)).map .ofPair

/-- The run that a policy picks. -/
def pickRun (policy : SearchPolicy) (numClusters : Nat) (runs : List AllocatedRun) : Option AllocatedRun :=
  match policy with
  | .firstRun => runs.head?.map (AllocatedRun.cut numClusters)
  | .longestRun =>
    match runs.find? fun run => numClusters ≤ run.clusterCount with
    | some run => some (run.cut numClusters)
    | none => runs.argmax AllocatedRun.clusterCount

/-- What a search returns that has picked a run, or none. -/
def picked : Option AllocatedRun → Except (Fault ExFatError) AllocatedRun
  | some run => .ok run
  | none => .error (.error .diskFull)

section Scan

variable (policy : SearchPolicy) (numClusters fromCluster endCluster : Nat) (f : Nat → Bool)

/-- The longer of two runs, the earlier one if they are equally long. -/
def keepLonger (best : Option AllocatedRun) (run : AllocatedRun) : Option AllocatedRun :=
  match best with
  | none => some run
  | some best => if best.clusterCount < run.clusterCount then some run else some best

/-- What a search picks that has kept a run already. -/
def pickFrom (longest : Option AllocatedRun) (runs : List AllocatedRun) : Option AllocatedRun :=
  match policy with
  | .firstRun => runs.head?.map (AllocatedRun.cut numClusters)
  | .longestRun =>
    match runs.find? fun run => numClusters ≤ run.clusterCount with
    | some run => some (run.cut numClusters)
    | none => runs.foldl keepLonger longest

theorem pickFrom_none (runs : List AllocatedRun) :
    pickFrom policy numClusters none runs = pickRun policy numClusters runs := by
  have same : runs.foldl keepLonger none = runs.argmax AllocatedRun.clusterCount := by
    have step : keepLonger = List.argAux fun b c : AllocatedRun => c.clusterCount < b.clusterCount := by
      funext best run
      cases best <;> rfl
    rw [List.argmax, step]
  cases policy with
  | firstRun => rfl
  | longestRun => rw [pickFrom, pickRun, same]

/-- The bits that are still to be scanned. -/
def bitsAhead (clusterId : Nat) : List Bool :=
  (List.range' (max fromCluster clusterId) (endCluster - max fromCluster clusterId)).map f

/-- The run in progress. -/
def inProgress (s : ScanState) : List AllocatedRun := (s.firstCluster.map fun first => ⟨first, s.count⟩).toList

/-- The runs that the bit scan has yet to see the end of. -/
def runsAhead (s : ScanState) : List AllocatedRun :=
  (bitRuns (s.firstCluster.getD (max fromCluster s.clusterId)) (List.replicate s.count true ++
    bitsAhead fromCluster endCluster f s.clusterId)).map .ofPair

variable {policy numClusters fromCluster endCluster f}

/-- Closing the run in progress picks it, or leaves what the bit scan would pick as it was. -/
theorem closeRun_pick {s : ScanState} (few : ∀ first, s.firstCluster = some first → s.count < numClusters)
    (rest : List AllocatedRun) :
    (∃ run closed, closeRun policy s = (some run, closed) ∧
      pickFrom policy numClusters s.longest (inProgress s ++ rest) = some run) ∨
    ∃ closed, closeRun policy s = (none, closed) ∧ closed.clusterId = s.clusterId ∧ closed.firstCluster = none ∧
      closed.count = 0 ∧
      pickFrom policy numClusters s.longest (inProgress s ++ rest) =
        pickFrom policy numClusters closed.longest rest := by
  rcases opening : s.firstCluster with _ | first
  · have none_ : inProgress s = [] := by rw [inProgress, opening]; rfl
    rw [none_]
    refine Or.inr ⟨{ s with firstCluster := none, count := 0 }, ?_, rfl, rfl, rfl, rfl⟩
    cases policy <;> simp [closeRun, opening]
  · have short := few first opening
    have one : inProgress s = [⟨first, s.count⟩] := by rw [inProgress, opening]; rfl
    rw [one]
    cases policy with
    | firstRun =>
      refine Or.inl ⟨⟨first, s.count⟩, { s with firstCluster := none, count := 0 }, by simp [closeRun, opening], ?_⟩
      rw [pickFrom, List.singleton_append, List.head?_cons, Option.map_some, AllocatedRun.cut,
        Nat.min_eq_right short.le]
    | longestRun =>
      have later : pickFrom .longestRun numClusters s.longest ([⟨first, s.count⟩] ++ rest) =
          pickFrom .longestRun numClusters (keepLonger s.longest ⟨first, s.count⟩) rest := by
        rw [pickFrom, pickFrom, List.singleton_append, List.find?_cons_of_neg (by simpa using short), List.foldl_cons]
      refine Or.inr ⟨{ s with firstCluster := none, count := 0, longest := keepLonger s.longest ⟨first, s.count⟩ },
        ?_, rfl, rfl, rfl, later⟩
      rcases best : s.longest with _ | old
      · simp [closeRun, opening, best, keepLonger]
      · by_cases better : old.clusterCount < s.count <;> simp [closeRun, opening, best, better, keepLonger]

theorem bitsAhead_nil {clusterId : Nat} (past : endCluster ≤ clusterId) :
    bitsAhead fromCluster endCluster f clusterId = [] := by
  rw [bitsAhead, Nat.sub_eq_zero_of_le (past.trans (le_max_right _ _))]
  rfl

theorem bitsAhead_cons {clusterId : Nat} (above : fromCluster ≤ clusterId) (below : clusterId < endCluster) :
    bitsAhead fromCluster endCluster f clusterId =
      f clusterId :: bitsAhead fromCluster endCluster f (clusterId + 1) := by
  obtain ⟨m, more⟩ : ∃ m, endCluster - clusterId = m + 1 := ⟨endCluster - clusterId - 1, by omega⟩
  rw [bitsAhead, bitsAhead, max_eq_right above, max_eq_right (Nat.le_succ_of_le above), more, List.range'_succ,
    List.map_cons,
    show endCluster - (clusterId + 1) = m by omega]

/-- Clusters that are not free belong to no run. -/
theorem bitRuns_skip {clusterId : Nat} (k : Nat)
    (taken : ∀ c, fromCluster ≤ c → clusterId ≤ c → c < clusterId + k → c < endCluster → f c = false) :
    bitRuns (max fromCluster clusterId) (bitsAhead fromCluster endCluster f clusterId) =
      bitRuns (max fromCluster (clusterId + k)) (bitsAhead fromCluster endCluster f (clusterId + k)) := by
  induction k with
  | zero => rfl
  | succ k ih =>
    rw [ih fun c above low high inside => taken c above low (by omega) inside]
    by_cases before : clusterId + k < fromCluster
    · have same : max fromCluster (clusterId + k) = max fromCluster (clusterId + (k + 1)) := by omega
      rw [bitsAhead, bitsAhead, same]
    · have above := Nat.le_of_not_lt before
      by_cases past : endCluster ≤ clusterId + k
      · rw [bitsAhead_nil past, bitsAhead_nil (by omega)]
        rfl
      · have here := taken (clusterId + k) above (Nat.le_add_right _ _) (by omega) (Nat.lt_of_not_le past)
        rw [bitsAhead_cons above (Nat.lt_of_not_le past), here, max_eq_right above,
          max_eq_right (show fromCluster ≤ clusterId + (k + 1) by omega)]
        rfl

/-- A run in progress is over where there is nothing free. -/
theorem runsAhead_closed {s : ScanState}
    (scanned : Scanned (fun c => f c = true) policy fromCluster endCluster numClusters s)
    (nothing : fromCluster ≤ s.clusterId → s.clusterId < endCluster → f s.clusterId = false) :
    runsAhead fromCluster endCluster f s =
      inProgress s ++ (bitRuns (max fromCluster s.clusterId) (bitsAhead fromCluster endCluster f s.clusterId)).map
        .ofPair := by
  rw [runsAhead, inProgress]
  rcases opening : s.firstCluster with _ | first
  · rw [scanned.idle opening]
    rfl
  · obtain ⟨run, ends, _⟩ := scanned.progress first opening
    obtain ⟨k, count⟩ : ∃ k, s.count = k + 1 := ⟨s.count - 1, by have pos := run.pos; dsimp only at pos; omega⟩
    have above := run.above
    have last : first + (k + 1) = s.clusterId := by omega
    have here : max fromCluster s.clusterId = s.clusterId := by dsimp only at above; omega
    rw [Option.getD_some, count, here, BitRuns.replicate_closed k first ?_, last]
    · rfl
    · intro run member same
      rw [last] at member same
      by_cases past : endCluster ≤ s.clusterId
      · rw [bitsAhead_nil past] at member
        cases member
      · have inside := Nat.lt_of_not_le past
        dsimp only at above
        rw [bitsAhead_cons (by omega) inside, nothing (by omega) inside, bitRuns] at member
        have later := BitRuns.start_le _ run (List.mem_of_mem_head? member)
        omega

/-- What the bit scan has yet to see decides what it picks. -/
structure Owing (policy : SearchPolicy) (numClusters fromCluster endCluster : Nat) (f : Nat → Bool)
    (r : Option AllocatedRun)
    (s : ScanState) : Prop extends Scanned (fun c => f c = true) policy fromCluster endCluster numClusters s where
  owed : pickFrom policy numClusters s.longest (runsAhead fromCluster endCluster f s) = r

theorem Owing.few {r : Option AllocatedRun} {s : ScanState}
    (owing : Owing policy numClusters fromCluster endCluster f r s) :
    ∀ first, s.firstCluster = some first → s.count < numClusters :=
  fun first opening => (owing.progress first opening).2.2

/-- Passing over clusters that are not free, after closing the run in progress. -/
theorem Owing.skip {r : Option AllocatedRun} {s : ScanState} {k : Nat} (some_ : 0 < k)
    (bound : s.clusterId + k < 2 ^ 32)
    (owing : Owing policy numClusters fromCluster endCluster f r s)
    (taken : ∀ c, fromCluster ≤ c → s.clusterId ≤ c → c < s.clusterId + k → c < endCluster → f c = false) :
    FlowHolds (Owing policy numClusters fromCluster endCluster f r) (fun run => r = some run) endCluster
      (s.clusterId + k)
      (match closeRun policy s with
        | (some run, _) => .found run
        | (none, s) => s.advance k) := by
  have notFree : ∀ c, fromCluster ≤ c → s.clusterId ≤ c → c < s.clusterId + k → c < endCluster → ¬ f c = true :=
    fun c above low high inside one => by
      rw [taken c above low high inside] at one
      cases one
  have flow := closeRun_flow bound owing.toScanned notFree
  have owed := owing.owed
  rw [runsAhead_closed owing.toScanned fun above inside => taken _ above le_rfl (by omega) inside,
    bitRuns_skip k taken] at owed
  rcases closeRun_pick owing.few
    ((bitRuns (max fromCluster (s.clusterId + k)) (bitsAhead fromCluster endCluster f (s.clusterId + k))).map
    .ofPair) with
    ⟨run, closed, closing, pick⟩ | ⟨closed, closing, same, none_, zero, pick⟩
  · rw [closing]
    exact owed.symm.trans pick
  · rw [closing] at flow ⊢
    dsimp only at flow ⊢
    rw [← same] at bound flow pick owed ⊢
    rw [advance_eq bound] at flow ⊢
    refine ⟨⟨flow.1, ?_⟩, rfl⟩
    rw [runsAhead, none_, zero]
    exact pick.symm.trans owed

/-- At a free cluster the bits ahead of the run in progress are those behind it and one more. -/
theorem runsAhead_free {s : ScanState} (above : fromCluster ≤ s.clusterId) (inside : s.clusterId < endCluster)
    (here : f s.clusterId = true) : runsAhead fromCluster endCluster f s = (bitRuns (s.firstCluster.getD s.clusterId)
      (List.replicate (s.count + 1) true ++ bitsAhead fromCluster endCluster f (s.clusterId + 1))).map .ofPair := by
  have first : s.firstCluster.getD (max fromCluster s.clusterId) = s.firstCluster.getD s.clusterId := by
    rw [max_eq_right above]
  rw [runsAhead, first, bitsAhead_cons above inside, here, List.replicate_succ', List.append_assoc]
  rfl

/-- A run that is long enough is the one to pick. -/
theorem pickFrom_full {first : Nat} {count : Nat} (enough : count + 1 = numClusters) (best : Option AllocatedRun)
    (bits : List Bool) :
    pickFrom policy numClusters best ((bitRuns first (List.replicate (count + 1) true ++ bits)).map .ofPair) =
      some ⟨first, count + 1⟩ := by
  obtain ⟨length, runs, here, long⟩ := BitRuns.replicate_true count first
  rw [here, List.map_cons]
  have cut : AllocatedRun.cut numClusters (.ofPair (first, length)) = ⟨first, count + 1⟩ := by
    rw [AllocatedRun.cut, AllocatedRun.ofPair, Nat.min_eq_left (by dsimp only; omega), enough]
  have reaches : decide (numClusters ≤ (AllocatedRun.ofPair (first, length)).clusterCount) = true := by
    rw [decide_eq_true_iff, AllocatedRun.ofPair]
    dsimp only
    omega
  rw [← cut]
  cases policy with
  | firstRun => rfl
  | longestRun =>
    have picks : (AllocatedRun.ofPair (first, length) :: runs.map .ofPair).find?
        (fun run => decide (numClusters ≤ run.clusterCount)) = some (.ofPair (first, length)) :=
      List.find?_cons_of_pos reaches
    rw [pickFrom, picks]

theorem Owing.bit {r : Option AllocatedRun} {isFree : Bool} {s : ScanState} (bound : s.clusterId + 1 < 2 ^ 32)
    (wanted : 0 < numClusters)
    (owing : Owing policy numClusters fromCluster endCluster f r s) (bit : isFree = true ↔ f s.clusterId = true) :
    FlowHolds (Owing policy numClusters fromCluster endCluster f r) (fun run => r = some run) endCluster
      (s.clusterId + 1)
      (scanBit policy fromCluster endCluster numClusters isFree s) := by
  have owed := owing.owed
  refine scanBit_flow bound owing (fun before => ⟨owing.before before, ?_⟩) (fun _ _ zero => ?_)
    (fun above inside one enough => ?_)
    fun above inside one short => ⟨owing.longer wanted above inside (bit.mp one) short, ?_⟩
  · have same : max fromCluster (s.clusterId + 1) = max fromCluster s.clusterId := by omega
    rw [runsAhead, bitsAhead]
    dsimp only
    rw [same]
    exact owed
  · refine owing.skip Nat.one_pos bound fun c _ low high _ => ?_
    have here : c = s.clusterId := by omega
    rw [here, Bool.eq_false_iff]
    exact fun one => absurd (bit.mpr one) (by rw [zero]; decide)
  · rw [runsAhead_free above inside (bit.mp one), pickFrom_full enough] at owed
    exact owed.symm
  · rw [runsAhead_free above inside (bit.mp one)] at owed
    exact owed

theorem owing_rule (wanted : 0 < numClusters) (r : Option AllocatedRun) :
    ScanRule (fun c => f c = true) policy fromCluster endCluster
    numClusters (Owing policy numClusters fromCluster endCluster f r) (fun run => r = some run) where
  bit bound owing bit := owing.bit bound wanted bit
  skip some_ bound owing taken :=
    owing.skip some_ bound fun c above low high inside => Bool.eq_false_iff.mpr (taken c above low high inside)

/-- The end of the scan. -/
theorem Owing.concludes {r : Option AllocatedRun} {s : ScanState}
    (owing : Owing policy numClusters fromCluster endCluster f r s)
    (past : endCluster ≤ s.clusterId) : Allocator.concludeScan policy (.next s) = picked r := by
  have owed := owing.owed
  rw [runsAhead_closed owing.toScanned fun _ inside => absurd past (Nat.not_le_of_lt inside),
    bitsAhead_nil past] at owed
  rw [Allocator.concludeScan]
  rcases closeRun_pick owing.few [] with ⟨run, closed, closing, pick⟩ | ⟨closed, closing, _, _, _, pick⟩
  · have one : r = some run := owed.symm.trans pick
    rw [closing, one]
    rfl
  · have left : r = pickFrom policy numClusters closed.longest [] := owed.symm.trans pick
    rw [closing, left]
    dsimp only
    cases policy with
    | firstRun =>
      have kept : s.longest = closed.longest := congrArg (fun closed => closed.2.longest) closing
      cases best : closed.longest with
      | none => rfl
      | some run => cases (owing.longest run (kept.trans best)).1
    | longestRun =>
      rw [pickFrom, List.find?_nil, List.foldl_nil]
      cases closed.longest <;> rfl

end Scan

namespace Allocator

variable {size n : Nat} {home : Nat → CacheKind} {policy : SearchPolicy} {fromCluster numClusters : Nat}

theorem SearchEnds.plain {v : Volume size} {r : Except (Fault ExFatError) AllocatedRun} (wanted : 0 < numClusters)
    (ends : SearchEnds v policy fromCluster numClusters r) :
    r = picked (pickRun policy numClusters (v.freeRuns fromCluster)) := by
  cases ends with
  | nothing none_ =>
    have empty : v.freeRuns fromCluster = [] := by
      have past : v.endCluster - fromCluster = 0 :=
        Nat.sub_eq_zero_of_le (Nat.le_of_not_lt (none_ fromCluster le_rfl))
      rw [Volume.freeRuns, past]
      rfl
    rw [empty]
    cases policy <;> rfl
  | @scanned flow start upTo whole first holds =>
    have none_ : Scanned v.IsFree policy fromCluster v.endCluster numClusters ⟨start, none, 0, none⟩ :=
      ⟨by simp, by simp, by simp, fun _ _ c above below _ => by dsimp only at below; omega⟩
    have owing : Owing policy numClusters fromCluster v.endCluster v.isFreeCluster
      (pickRun policy numClusters (v.freeRuns fromCluster))
        ⟨start, none, 0, none⟩ := by
      refine ⟨none_, ?_⟩
      have begin : max fromCluster start = fromCluster := max_eq_left first
      rw [pickFrom_none, runsAhead, bitsAhead, Option.getD_none, begin]
      rfl
    have flowed := holds _ _ (owing_rule wanted _) owing
    cases flow with
    | next s => exact flowed.1.concludes (flowed.2 ▸ whole)
    | leave s => exact flowed.1.concludes flowed.2
    | found run =>
      have found : pickRun policy numClusters (v.freeRuns fromCluster) = some run := flowed
      rw [found]
      rfl
    | overflow => exact flowed.elim

/-- `find_free_clusters_from` returns what the plain scan of the bits picks. -/
theorem findFreeClustersFrom_plain (policy : SearchPolicy) {fs : FileSystem size n} (sound : fs.Sound home)
    (layout : BitmapLayout size home fs.setup) (wanted : 0 < numClusters)
    (inHeap : (fs.volume home).InHeap fromCluster) :
    FileSystem.Leads home (findFreeClustersFrom fromCluster numClusters policy) fs
      (picked (pickRun policy numClusters ((fs.volume home).freeRuns fromCluster))) (fs.volume home) := by
  obtain ⟨r, run, ends⟩ := findFreeClustersFrom_ends policy numClusters sound layout inHeap.1
  rwa [ends.plain wanted] at run

/-- The first run of the clusters 3 to 9, cut to two. -/
theorem findFreeClustersFrom_plain_eight :
    FileSystem.Leads eightHome (findFreeClustersFrom 3 2 .firstRun) eightClusters.fs
    (.ok ⟨3, 2⟩) (eightClusters.fs.volume eightHome) := by
  have run := findFreeClustersFrom_plain .firstRun eightClusters_sound eightClusters_layout (show 0 < 2 by decide)
    (show (eightClusters.fs.volume eightHome).InHeap 3 from ⟨by decide, by decide⟩)
  have picks : pickRun .firstRun 2 ((eightClusters.fs.volume eightHome).freeRuns 3) = some ⟨3, 2⟩ := by decide +kernel
  rwa [picks] at run

end Allocator

namespace Volume

variable {size : Nat} {v : Volume size} {fromCluster numClusters : Nat}

/-- Free clusters of the heap in a row. -/
structure FreeStretch (v : Volume size) (run : AllocatedRun) : Prop where
  pos : 0 < run.clusterCount
  low : 2 ≤ run.firstCluster
  high : run.firstCluster + run.clusterCount ≤ v.endCluster
  free : ∀ c, run.firstCluster ≤ c → c < run.firstCluster + run.clusterCount → v.IsFree c

/-- The runs of a bit scan are the free clusters in a row that cannot be made longer. -/
theorem mem_freeRuns {run : AllocatedRun} (below : fromCluster ≤ v.endCluster) : run ∈ v.freeRuns fromCluster ↔
    BitRuns.Maximal v.isFreeCluster fromCluster v.endCluster (run.firstCluster, run.clusterCount) := by
  have high : fromCluster + (v.endCluster - fromCluster) = v.endCluster := Nat.add_sub_cancel' below
  have here := @BitRuns.mem_iff v.isFreeCluster (v.endCluster - fromCluster) fromCluster
    (run.firstCluster, run.clusterCount)
  rw [high] at here
  rw [freeRuns, List.mem_map, ← here]
  constructor
  · rintro ⟨pair, member, rfl⟩
    exact member
  · intro member
    exact ⟨_, member, rfl⟩

theorem freeRuns_past (past : v.endCluster ≤ fromCluster) : v.freeRuns fromCluster = [] := by
  rw [freeRuns, Nat.sub_eq_zero_of_le past]
  rfl

theorem freeStretch_of_mem (low : 2 ≤ fromCluster) {run : AllocatedRun} (member : run ∈ v.freeRuns fromCluster) :
    v.FreeStretch run ∧ fromCluster ≤ run.firstCluster := by
  by_cases past : v.endCluster ≤ fromCluster
  · rw [freeRuns_past past] at member
    cases member
  · have maximal := (mem_freeRuns (Nat.le_of_not_le past)).mp member
    exact ⟨⟨maximal.pos, low.trans maximal.above, maximal.below, maximal.ones⟩, maximal.above⟩

/-- Free clusters in a row are part of one of the runs. -/
theorem FreeStretch.covered {stretch : AllocatedRun} (free : v.FreeStretch stretch)
    (above : fromCluster ≤ stretch.firstCluster) :
    ∃ run ∈ v.freeRuns fromCluster, stretch.clusterCount ≤ run.clusterCount := by
  obtain ⟨k, count⟩ : ∃ k, stretch.clusterCount = k + 1 := ⟨stretch.clusterCount - 1, by have pos := free.pos; omega⟩
  have high := free.high
  have all := free.free
  rw [count] at high all
  obtain ⟨run, member, begins, ends⟩ :=
    BitRuns.covered v.isFreeCluster (v.endCluster - fromCluster) above (by omega) all
  exact ⟨.ofPair run, List.mem_map_of_mem member, by rw [count]; dsimp only [AllocatedRun.ofPair]; omega⟩

/-- No free clusters in a row from a cluster on are more than a run has, up to the number asked for. -/
structure BestFrom (v : Volume size) (fromCluster numClusters : Nat) (run : AllocatedRun) : Prop where
  stretch : v.FreeStretch run
  above : fromCluster ≤ run.firstCluster
  few : run.clusterCount ≤ numClusters
  best : ∀ other, v.FreeStretch other → fromCluster ≤ other.firstCluster → min numClusters other.clusterCount ≤
    run.clusterCount

/-- The longest-run policy picks the best run from a cluster on, if anything is free from there on. -/
theorem pickRun_best (wanted : 0 < numClusters) (low : 2 ≤ fromCluster) :
    (∃ run, pickRun .longestRun numClusters (v.freeRuns fromCluster) = some run ∧
      v.BestFrom fromCluster numClusters run) ∨
    pickRun .longestRun numClusters (v.freeRuns fromCluster) = none ∧ ∀ other, v.FreeStretch other → ¬ fromCluster ≤
      other.firstCluster := by
  rw [pickRun]
  cases long : (v.freeRuns fromCluster).find? fun run => decide (numClusters ≤ run.clusterCount) with
  | some run =>
    have enough : numClusters ≤ run.clusterCount := by
      have passes := List.find?_some long
      rwa [decide_eq_true_iff] at passes
    obtain ⟨free, above⟩ := freeStretch_of_mem low (List.mem_of_find?_eq_some long)
    have high := free.high
    have cut : run.cut numClusters = ⟨run.firstCluster, numClusters⟩ := by
      rw [AllocatedRun.cut, Nat.min_eq_left enough]
    refine Or.inl ⟨_, rfl, ?_⟩
    rw [cut]
    refine ⟨⟨wanted, free.low, ?_, fun c start stop => free.free c start ?_⟩, above, le_rfl, fun _ _ _ =>
      Nat.min_le_left _ _⟩
    · dsimp only
      omega
    · dsimp only at stop
      omega
  | none =>
    have short := List.find?_eq_none.mp long
    cases longest : (v.freeRuns fromCluster).argmax AllocatedRun.clusterCount with
    | some run =>
      have member := List.argmax_mem longest
      obtain ⟨free, above⟩ := freeStretch_of_mem low member
      have few := short run member
      rw [decide_eq_true_iff] at few
      refine Or.inl ⟨run, rfl, free, above, by omega, fun other free' above' => ?_⟩
      obtain ⟨run', member', part⟩ := free'.covered above'
      have most := List.le_of_mem_argmax member' longest
      omega
    | none =>
      refine Or.inr ⟨rfl, fun other free' above' => ?_⟩
      obtain ⟨run', member', _⟩ := free'.covered above'
      rw [List.argmax_eq_none.mp longest] at member'
      cases member'

/-- What a search for a longest run promises: as many clusters in a row as are asked for, if the
heap has them anywhere, and else a run as long as any. -/
def Promised (v : Volume size) (numClusters : Nat) : Except (Fault ExFatError) AllocatedRun → Prop
  | .ok run => v.FreeStretch run ∧
      ((∃ other, v.FreeStretch other ∧ other.clusterCount = numClusters) → run.clusterCount = numClusters) ∧
      ((¬ ∃ other, v.FreeStretch other ∧ other.clusterCount = numClusters) →
        ∀ other, v.FreeStretch other → other.clusterCount ≤ run.clusterCount)
  | .error e => e = .error .diskFull ∧ ∀ c, v.InHeap c → ¬ v.IsFree c

/-- Nothing is free from the place on that the search starts at, or nothing in the heap is
better than a run from there on. -/
def BestAhead (v : Volume size) (numClusters : Nat) : Prop :=
  (∀ c, v.setup.nextSearchCluster ≤ c → c < v.endCluster → ¬ v.IsFree c) ∨
    ∃ run, v.FreeStretch run ∧ v.setup.nextSearchCluster ≤ run.firstCluster ∧
      ∀ other, v.FreeStretch other → min numClusters other.clusterCount ≤ run.clusterCount

theorem FreeStretch.part {stretch : AllocatedRun} (free : v.FreeStretch stretch) (wanted : 0 < numClusters)
    (enough : numClusters ≤ stretch.clusterCount) : v.FreeStretch ⟨stretch.firstCluster, numClusters⟩ := by
  have high := free.high
  refine ⟨wanted, free.low, ?_, fun c start stop => free.free c start ?_⟩
  · dsimp only
    omega
  · dsimp only at stop
    omega

theorem freeStretch_one {c : Nat} (inHeap : v.InHeap c) (free : v.IsFree c) : v.FreeStretch ⟨c, 1⟩ := by
  refine ⟨Nat.one_pos, inHeap.1, inHeap.2, fun d start stop => ?_⟩
  have here : d = c := by
    dsimp only at start stop
    omega
  rwa [here]

/-- What is promised of a run is that no free clusters in a row are more, up to the number asked for. -/
theorem promised_iff (wanted : 0 < numClusters) {run : AllocatedRun} (free : v.FreeStretch run)
    (few : run.clusterCount ≤ numClusters) :
    v.Promised numClusters (.ok run) ↔ ∀ other, v.FreeStretch other → min numClusters other.clusterCount ≤
      run.clusterCount := by
  constructor
  · rintro ⟨_, whole, longest⟩ other free'
    by_cases fits : ∃ other, v.FreeStretch other ∧ other.clusterCount = numClusters
    · have all := whole fits
      omega
    · have most := longest fits other free'
      omega
  · intro best
    refine ⟨free, ?_, fun none_ other free' => ?_⟩
    · rintro ⟨other, free', rfl⟩
      have most := best other free'
      omega
    · have most := best other free'
      by_cases enough : numClusters ≤ other.clusterCount
      · exact absurd ⟨_, free'.part wanted enough, rfl⟩ none_
      · omega

end Volume

namespace Allocator

variable {size n : Nat} {home : Nat → CacheKind} {fs : FileSystem size n} {numClusters : Nat}

/-- The search from the beginning of the heap comes second, and only when nothing is free from
the place on that the first one starts at. -/
theorem findWrapping_best (sound : fs.Sound home) (layout : BitmapLayout size home fs.setup)
    (wanted : 0 < numClusters)
    (low : 2 ≤ fs.setup.nextSearchCluster) : ∃ r,
      FileSystem.Leads home (findWrapping fs.setup.nextSearchCluster numClusters .longestRun) fs (picked r)
        (fs.volume home) ∧
      ((∃ run, r = some run ∧ (fs.volume home).BestFrom fs.setup.nextSearchCluster numClusters run) ∨
        (∀ other, (fs.volume home).FreeStretch other → ¬ fs.setup.nextSearchCluster ≤ other.firstCluster) ∧
          ((∃ run, r = some run ∧ (fs.volume home).BestFrom 2 numClusters run) ∨
            r = none ∧ ∀ other, ¬ (fs.volume home).FreeStretch other)) := by
  obtain ⟨_, search, ends⟩ := findFreeClustersFrom_ends .longestRun numClusters sound layout low
  rw [ends.plain wanted] at search
  unfold findWrapping
  rcases (fs.volume home).pickRun_best wanted low with ⟨run, picks, best⟩ | ⟨picks, none_⟩
  · rw [picks] at search
    refine ⟨some run, ?_, Or.inl ⟨run, rfl, best⟩⟩
    split
    · obtain ⟨fs', runs, sound', shown'⟩ := search
      exact .of_run (onDiskFull_of_ne runs (by simp [picked])) sound' shown'
    · exact search
  · rw [picks] at search
    by_cases again : firstClusterId < fs.setup.nextSearchCluster
    · rw [if_pos again]
      obtain ⟨fs', runs, sound', shown'⟩ := search
      have setup : fs'.setup = fs.setup := congrArg Volume.setup shown'
      obtain ⟨_, second, ends'⟩ :=
        findFreeClustersFrom_ends .longestRun numClusters sound' (setup ▸ layout)
        (show 2 ≤ firstClusterId from le_rfl)
      rw [shown'] at second ends'
      rw [ends'.plain wanted] at second
      obtain ⟨fs'', runs', sound'', shown''⟩ := second
      refine ⟨pickRun .longestRun numClusters ((fs.volume home).freeRuns firstClusterId), .of_run ?_ sound'' shown'',
        Or.inr ⟨none_, ?_⟩⟩
      · rw [onDiskFull, runs]
        exact runs'
      · rcases (fs.volume home).pickRun_best wanted (show 2 ≤ firstClusterId from le_rfl) with ⟨run, picks', best⟩ |
          ⟨picks', nothing⟩
        · exact Or.inl ⟨run, picks', best⟩
        · exact Or.inr ⟨picks', fun other free => nothing other free free.low⟩
    · rw [if_neg again]
      have same : fs.setup.nextSearchCluster = 2 := by
        simp only [firstClusterId] at again
        omega
      exact ⟨none, search, Or.inr ⟨none_, Or.inr ⟨rfl, fun other free => none_ other free (same ▸ free.low)⟩⟩⟩

theorem findFreeClusters_best (sound : fs.Sound home) (layout : BitmapLayout size home fs.setup)
    (wanted : 0 < numClusters)
    (low : 2 ≤ fs.setup.nextSearchCluster) :
    ∃ r fs', findFreeClusters none numClusters .longestRun fs = (picked r, fs') ∧
      ((∃ run, r = some run ∧ (fs.volume home).BestFrom fs.setup.nextSearchCluster numClusters run) ∨
        (∀ other, (fs.volume home).FreeStretch other → ¬ fs.setup.nextSearchCluster ≤ other.firstCluster) ∧
          ((∃ run, r = some run ∧ (fs.volume home).BestFrom 2 numClusters run) ∨
            r = none ∧ ∀ other, ¬ (fs.volume home).FreeStretch other)) := by
  obtain ⟨r, ⟨fs', search, _, _⟩, outcome⟩ := findWrapping_best sound layout wanted low
  have start : findFreeClusters none numClusters .longestRun fs = (do
      let run ← findWrapping fs.setup.nextSearchCluster numClusters .longestRun
      let nextSearchCluster ← u32 (run.firstCluster + run.clusterCount)
      modify fun fs => { fs with allocator := { fs.allocator with nextSearchCluster } }
      pure run : ExFat (FileSystem size n) AllocatedRun) fs := Exec.bind_of_ok (Exec.get_apply fs)
  cases r with
  | none => exact ⟨none, fs', start.trans (Exec.bind_of_error search), outcome⟩
  | some run =>
    have free : (fs.volume home).FreeStretch run := by
      rcases outcome with ⟨_, same, best⟩ | ⟨_, ⟨_, same, best⟩ | ⟨same, _⟩⟩
      · cases same
        exact best.stretch
      · cases same
        exact best.stretch
      · cases same
    have bound : run.firstCluster + run.clusterCount < 2 ^ 32 := by
      have high := free.high
      have padding := layout.padding
      have covers := layout.covers
      simp only [Volume.endCluster, FileSystem.volume_setup] at high
      omega
    exact ⟨some run, _, start.trans ((Exec.bind_of_ok search).trans (Exec.bind_of_ok (u32_of_lt bound fs'))), outcome⟩

/-- `find_free_clusters` keeps the promise of the longest-run policy exactly when the best run
is to be found from the place on that it starts at, or nothing is free from there on. -/
theorem longest_run_iff (sound : fs.Sound home) (layout : BitmapLayout size home fs.setup) (wanted : 0 < numClusters)
    (low : 2 ≤ fs.setup.nextSearchCluster) :
    (∃ r fs', findFreeClusters none numClusters .longestRun fs = (r, fs') ∧ (fs.volume home).Promised numClusters r) ↔
      (fs.volume home).BestAhead numClusters := by
  obtain ⟨r, fs', call, outcome⟩ := findFreeClusters_best sound layout wanted low
  have same : (∃ r fs', findFreeClusters none numClusters .longestRun fs = (r, fs') ∧
    (fs.volume home).Promised numClusters r) ↔
      (fs.volume home).Promised numClusters (picked r) := by
    constructor
    · rintro ⟨r', fs'', call', promised⟩
      cases call.symm.trans call'
      exact promised
    · exact fun promised => ⟨_, fs', call, promised⟩
  rw [same]
  rcases outcome with ⟨run, rfl, best⟩ | ⟨none_, outcome⟩
  · -- the first search has decided
    rw [picked, Volume.promised_iff wanted best.stretch best.few]
    constructor
    · exact fun all => Or.inr ⟨run, best.stretch, best.above, all⟩
    · rintro (nothing | ⟨ahead, free, above, all⟩)
      · have pos := best.stretch.pos
        have high := best.stretch.high
        exact absurd (best.stretch.free run.firstCluster le_rfl (by omega)) (nothing _ best.above (by omega))
      · intro other free'
        have whole := all other free'
        have most := best.best ahead free above
        omega
  · have ahead : (fs.volume home).BestAhead numClusters := Or.inl fun c above below free =>
      none_ ⟨c, 1⟩ (Volume.freeStretch_one ⟨low.trans above, below⟩ free) above
    refine ⟨fun _ => ahead, fun _ => ?_⟩
    rcases outcome with ⟨run, rfl, best⟩ | ⟨rfl, nothing⟩
    · exact (Volume.promised_iff wanted best.stretch best.few).mpr fun other free => best.best other free free.low
    · exact ⟨rfl, fun c inHeap free => nothing _ (Volume.freeStretch_one inHeap free)⟩

theorem longest_run_iff_eight :
    (∃ r fs', findFreeClusters none 9 .longestRun eightClusters.fs = (r, fs') ∧
      (eightClusters.fs.volume eightHome).Promised 9 r) ↔
      (eightClusters.fs.volume eightHome).BestAhead 9 :=
  longest_run_iff eightClusters_sound eightClusters_layout (by decide) (by decide)

/-- The last cluster of a heap is found while two in a row are free before it. -/
theorem longest_run_overlooks : (let fs := { eightClusters.fs with
      allocator := { eightClusters.fs.allocator with nextSearchCluster := 9 } }
    (∃ fs', findFreeClusters none 2 .longestRun fs = (.ok ⟨9, 1⟩, fs')) ∧
      (fs.volume eightHome).FreeStretch ⟨3, 2⟩) := by
  refine ⟨⟨_, rfl⟩, by decide, by decide, by decide, fun c start stop => ?_⟩
  obtain rfl | rfl : c = 3 ∨ c = 4 := by
    dsimp only at start stop
    omega
  · unfold Volume.IsFree
    decide
  · unfold Volume.IsFree
    decide

end Allocator

end ExFatSlim
