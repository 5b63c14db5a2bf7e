import ExFatSlim.Allocation

namespace ExFatSlim

section Scan

variable (free : Nat → Prop) (policy : SearchPolicy) (fromCluster endCluster numClusters : Nat)

/-- A run that a search may return: free clusters of the searched range, at
most as many as asked for, and for the first-run policy nothing free before it. -/
structure FreeRun (run : AllocatedRun) : Prop where
  pos : 0 < run.clusterCount
  few : run.clusterCount ≤ numClusters
  above : fromCluster ≤ run.firstCluster
  below : run.firstCluster + run.clusterCount ≤ endCluster
  allFree : ∀ c, run.firstCluster ≤ c → c < run.firstCluster + run.clusterCount → free c
  first : policy = .firstRun → ∀ c, fromCluster ≤ c → c < run.firstCluster → ¬ free c

/-- What holds between two bits of the scan: the run in progress ends at the
current cluster, the longest run is a run to return, and if there is neither,
nothing free was met. -/
structure Scanned (s : ScanState) : Prop where
  progress : ∀ first, s.firstCluster = some first →
    FreeRun free policy fromCluster endCluster numClusters ⟨first, s.count⟩ ∧
      first + s.count = s.clusterId ∧ s.count < numClusters
  idle : s.firstCluster = none → s.count = 0
  longest : ∀ run, s.longest = some run → policy = .longestRun ∧
    FreeRun free policy fromCluster endCluster numClusters run
  full : s.firstCluster = none → s.longest = none →
    ∀ c, fromCluster ≤ c → c < s.clusterId → c < endCluster → ¬ free c

/-- What a piece of the scan may come to: it stops early, with a run or at the end of the heap, or it has gone on to
cluster `upTo`. -/
def FlowHolds (inv : ScanState → Prop) (found : AllocatedRun → Prop) (endCluster upTo : Nat) : ScanFlow → Prop
  | .next s => inv s ∧ s.clusterId = upTo
  | .leave s => inv s ∧ endCluster ≤ s.clusterId
  | .found run => found run
  | .overflow => False

/-- What is true between two bits, and of a run that ends the scan: one bit preserves it, and so
does passing over clusters that are not free. -/
structure ScanRule (inv : ScanState → Prop) (found : AllocatedRun → Prop) : Prop where
  bit : ∀ {isFree : Bool} {s : ScanState}, s.clusterId + 1 < 2 ^ 32 → inv s → (isFree = true ↔ free s.clusterId) →
    FlowHolds inv found endCluster (s.clusterId + 1) (scanBit policy fromCluster endCluster numClusters isFree s)
  skip : ∀ {s : ScanState} {k : Nat}, 0 < k → s.clusterId + k < 2 ^ 32 → inv s →
    (∀ c, fromCluster ≤ c → s.clusterId ≤ c → c < s.clusterId + k → c < endCluster → ¬ free c) →
    FlowHolds inv found endCluster (s.clusterId + k) (match closeRun policy s with
      | (some run, _) => .found run
      | (none, s) => s.advance k)

variable {free policy fromCluster endCluster numClusters}

theorem FlowHolds.andThen {inv : ScanState → Prop} {found : AllocatedRun → Prop} {flow : ScanFlow}
    {f : ScanState → ScanFlow}
    {middle upTo : Nat} (holds : FlowHolds inv found endCluster middle flow)
    (rest : ∀ s, inv s → s.clusterId = middle → FlowHolds inv found endCluster upTo (f s)) :
    FlowHolds inv found endCluster upTo (flow.andThen f) := by
  cases flow with
  | next s => exact rest s holds.1 holds.2
  | leave s => exact holds
  | found run => exact holds
  | overflow => exact holds

theorem FlowHolds.and {inv inv' : ScanState → Prop} {found found' : AllocatedRun → Prop}
    {flow : ScanFlow} {upTo : Nat}
    (one : FlowHolds inv found endCluster upTo flow) (two : FlowHolds inv' found' endCluster upTo flow) :
    FlowHolds (fun s => inv s ∧ inv' s) (fun run => found run ∧ found' run) endCluster upTo flow := by
  cases flow with
  | next s => exact ⟨⟨one.1, two.1⟩, one.2⟩
  | leave s => exact ⟨⟨one.1, two.1⟩, one.2⟩
  | found run => exact ⟨one, two⟩
  | overflow => exact one

theorem advance_eq {s : ScanState} {k : Nat} (bound : s.clusterId + k < 2 ^ 32) :
    s.advance k = .next { s with clusterId := s.clusterId + k } := by
  rw [ScanState.advance, if_pos bound]

/-- Closing the run in progress: a first run is returned, a longest run is
kept if it beats the best so far. -/
theorem closeRun_spec {s : ScanState}
    (scanned : Scanned free policy fromCluster endCluster numClusters s) :
    (∃ run closed, closeRun policy s = (some run, closed) ∧ policy = .firstRun ∧
      FreeRun free policy fromCluster endCluster numClusters run) ∨
    (∃ closed, closeRun policy s = (none, closed) ∧ closed.clusterId = s.clusterId ∧
      closed.firstCluster = none ∧ Scanned free policy fromCluster endCluster numClusters closed) := by
  obtain ⟨progress, idle, longest, full⟩ := scanned
  rcases opening : s.firstCluster with _ | first
  · -- nothing to close
    have same : { s with firstCluster := none, count := 0 } = s := by
      have none := idle opening
      cases s
      simp_all
    refine Or.inr ⟨s, ?_, rfl, opening, ⟨progress, idle, longest, full⟩⟩
    cases policy <;> simp [closeRun, opening, same]
  obtain ⟨run, _, _⟩ := progress first opening
  cases policy with
  | firstRun =>
    exact Or.inl ⟨⟨first, s.count⟩, { s with firstCluster := none, count := 0 },
      by simp [closeRun, opening], rfl, run⟩
  | longestRun =>
    right
    rcases best : s.longest with _ | old
    · refine ⟨{ s with firstCluster := none, count := 0, longest := some ⟨first, s.count⟩ },
        by simp [closeRun, opening, best], rfl, rfl, ?_⟩
      refine ⟨by simp, by simp, ?_, by simp⟩
      intro run' same
      cases Option.some.inj same
      exact ⟨rfl, run⟩
    · by_cases better : old.clusterCount < s.count
      · refine ⟨{ s with firstCluster := none, count := 0, longest := some ⟨first, s.count⟩ },
          by simp [closeRun, opening, best, better], rfl, rfl, ?_⟩
        refine ⟨by simp, by simp, ?_, by simp⟩
        intro run' same
        cases Option.some.inj same
        exact ⟨rfl, run⟩
      · refine ⟨{ s with firstCluster := none, count := 0 },
          by simp [closeRun, opening, best, better], rfl, rfl, ?_⟩
        exact ⟨by simp, by simp, longest, by simp [best]⟩

/-- A state without a run in progress moves over clusters that are not free. -/
theorem Scanned.skip {s : ScanState} {k : Nat}
    (scanned : Scanned free policy fromCluster endCluster numClusters s) (closed : s.firstCluster = none)
    (taken : ∀ c, fromCluster ≤ c → s.clusterId ≤ c → c < s.clusterId + k → c < endCluster → ¬ free c) :
    Scanned free policy fromCluster endCluster numClusters { s with clusterId := s.clusterId + k } := by
  refine ⟨by simp [closed], scanned.idle, scanned.longest, ?_⟩
  intro _ none c above below inside
  by_cases before : c < s.clusterId
  · exact scanned.full closed none c above before inside
  · exact taken c above (by omega) below inside

/-- Passing over clusters that are not free, after closing the run in progress. -/
theorem closeRun_flow {s : ScanState} {k : Nat} (bound : s.clusterId + k < 2 ^ 32)
    (scanned : Scanned free policy fromCluster endCluster numClusters s)
    (taken : ∀ c, fromCluster ≤ c → s.clusterId ≤ c → c < s.clusterId + k → c < endCluster → ¬ free c) :
    FlowHolds (Scanned free policy fromCluster endCluster numClusters)
      (FreeRun free policy fromCluster endCluster numClusters)
      endCluster (s.clusterId + k) (match closeRun policy s with
        | (some run, _) => .found run
        | (none, s) => s.advance k) := by
  rcases closeRun_spec scanned with ⟨run, closed, closing, _, fits⟩ | ⟨closed, closing, same, none, scanned'⟩
  · rw [closing]
    exact fits
  · rw [closing]
    dsimp only
    rw [← same] at bound taken ⊢
    rw [advance_eq bound]
    exact ⟨scanned'.skip none taken, rfl⟩

/-- What an invariant has to allow for one bit: before the range the scan goes on, at a bit that
is not free it closes the run in progress, and a free bit makes the run long enough or just
longer. -/
theorem scanBit_flow {inv : ScanState → Prop} {found : AllocatedRun → Prop} {isFree : Bool} {s : ScanState}
    (bound : s.clusterId + 1 < 2 ^ 32) (holds : inv s)
    (before : s.clusterId < fromCluster → inv { s with clusterId := s.clusterId + 1 })
    (taken : fromCluster ≤ s.clusterId → s.clusterId < endCluster → isFree = false →
      FlowHolds inv found endCluster (s.clusterId + 1) (match closeRun policy s with
        | (some run, _) => .found run
        | (none, s) => s.advance 1))
    (full : fromCluster ≤ s.clusterId → s.clusterId < endCluster → isFree = true → s.count + 1 = numClusters →
      found ⟨s.firstCluster.getD s.clusterId, s.count + 1⟩)
    (longer : fromCluster ≤ s.clusterId → s.clusterId < endCluster → isFree = true → s.count + 1 ≠ numClusters →
      inv { s with
        firstCluster := some (s.firstCluster.getD s.clusterId)
        count := s.count + 1
        clusterId := s.clusterId + 1 }) :
    FlowHolds inv found endCluster (s.clusterId + 1)
      (scanBit policy fromCluster endCluster numClusters isFree s) := by
  unfold scanBit
  by_cases early : s.clusterId < fromCluster
  · rw [if_pos early, advance_eq bound]
    exact ⟨before early, rfl⟩
  have above := Nat.le_of_not_lt early
  rw [if_neg early]
  by_cases past : endCluster ≤ s.clusterId
  · rw [if_pos past]
    exact ⟨holds, past⟩
  have inside := Nat.lt_of_not_le past
  rw [if_neg past]
  cases isFree with
  | false => exact taken above inside rfl
  | true =>
    simp only [if_true]
    by_cases enough : s.count + 1 = numClusters
    · rw [if_pos enough]
      exact full above inside rfl enough
    · rw [if_neg enough, advance_eq (by exact bound)]
      exact ⟨longer above inside rfl enough, rfl⟩

/-- Before the range no run is in progress. -/
theorem Scanned.closed {s : ScanState} (scanned : Scanned free policy fromCluster endCluster numClusters s)
    (before : s.clusterId < fromCluster) : s.firstCluster = none := by
  rcases opening : s.firstCluster with _ | first
  · rfl
  · obtain ⟨run, ends, _⟩ := scanned.progress first opening
    have above := run.above
    dsimp only at above
    omega

theorem Scanned.before {s : ScanState} (scanned : Scanned free policy fromCluster endCluster numClusters s)
    (before : s.clusterId < fromCluster) :
    Scanned free policy fromCluster endCluster numClusters { s with clusterId := s.clusterId + 1 } :=
  scanned.skip (scanned.closed before) fun c above start below _ => by omega

/-- The run in progress ends at the current cluster, and there is room in it for one more. -/
theorem Scanned.ends {s : ScanState} (scanned : Scanned free policy fromCluster endCluster numClusters s)
    (wanted : 0 < numClusters) :
    s.firstCluster.getD s.clusterId + s.count = s.clusterId ∧ s.count < numClusters := by
  rcases opening : s.firstCluster with _ | first
  · rw [scanned.idle opening]
    exact ⟨rfl, wanted⟩
  · exact (scanned.progress first opening).2

/-- The run in progress, or a new one, takes a free cluster. -/
theorem Scanned.takes {s : ScanState} (scanned : Scanned free policy fromCluster endCluster numClusters s)
    (wanted : 0 < numClusters) (above : fromCluster ≤ s.clusterId) (inside : s.clusterId < endCluster)
    (here : free s.clusterId) :
    FreeRun free policy fromCluster endCluster numClusters ⟨s.firstCluster.getD s.clusterId, s.count + 1⟩ := by
  rcases opening : s.firstCluster with _ | first
  · have zero := scanned.idle opening
    rw [Option.getD_none, zero]
    refine ⟨by simp, by simp; omega, above, by simp; omega, ?_, ?_⟩
    · intro c low high
      have same : c = s.clusterId := by dsimp only at low high; omega
      rwa [same]
    · intro isFirst c low high
      rcases best : s.longest with _ | old
      · exact scanned.full opening best c low high (by dsimp only at high; omega)
      · simp [isFirst] at scanned
        exact absurd (scanned.longest old best).1 (by simp)
  · obtain ⟨old, ends, few⟩ := scanned.progress first opening
    rw [Option.getD_some]
    refine ⟨by simp, few, old.above, by simp; omega, ?_, old.first⟩
    intro c low high
    dsimp only at low high
    by_cases last : c = s.clusterId
    · rwa [last]
    · exact old.allFree c low (by dsimp only; omega)

theorem Scanned.longer {s : ScanState} (scanned : Scanned free policy fromCluster endCluster numClusters s)
    (wanted : 0 < numClusters) (above : fromCluster ≤ s.clusterId) (inside : s.clusterId < endCluster)
    (here : free s.clusterId) (short : s.count + 1 ≠ numClusters) :
    Scanned free policy fromCluster endCluster numClusters
      { s with
        firstCluster := some (s.firstCluster.getD s.clusterId)
        count := s.count + 1
        clusterId := s.clusterId + 1 } := by
  have run := scanned.takes wanted above inside here
  have ends := (scanned.ends wanted).1
  have few := run.few
  dsimp only at few
  refine ⟨?_, by simp, scanned.longest, by simp⟩
  intro first same
  cases Option.some.inj same
  exact ⟨run, by dsimp only; omega, by dsimp only; omega⟩

theorem scanBit_spec {isFree : Bool} {s : ScanState} (bound : s.clusterId + 1 < 2 ^ 32)
    (scanned : Scanned free policy fromCluster endCluster numClusters s) (wanted : 0 < numClusters)
    (bit : isFree = true ↔ free s.clusterId) :
    FlowHolds (Scanned free policy fromCluster endCluster numClusters)
      (FreeRun free policy fromCluster endCluster numClusters)
      endCluster (s.clusterId + 1) (scanBit policy fromCluster endCluster numClusters isFree s) := by
  refine scanBit_flow bound scanned scanned.before (fun _ _ zero => ?_) (fun above inside one _ => ?_)
    fun above inside one short => ?_
  · refine closeRun_flow bound scanned fun c _ start below _ isFree => ?_
    have here : c = s.clusterId := by omega
    rw [bit.mpr (here ▸ isFree)] at zero
    cases zero
  · exact scanned.takes wanted above inside (bit.mp one)
  · exact scanned.longer wanted above inside (bit.mp one) short

theorem freeRun_rule (wanted : 0 < numClusters) : ScanRule free policy fromCluster endCluster numClusters
    (Scanned free policy fromCluster endCluster numClusters)
      (FreeRun free policy fromCluster endCluster numClusters) where
  bit bound scanned bit := scanBit_spec bound scanned wanted bit
  skip _ bound scanned taken := closeRun_flow bound scanned taken

variable {inv : ScanState → Prop} {found : AllocatedRun → Prop}

theorem scanBits_spec (rule : ScanRule free policy fromCluster endCluster numClusters inv found) (bits : List Bool) :
    ∀ {s : ScanState}, s.clusterId + bits.length < 2 ^ 32 → inv s →
    (∀ p (inside : p < bits.length), bits[p] = true ↔ free (s.clusterId + p)) →
    FlowHolds inv found endCluster (s.clusterId + bits.length)
      (scanBits policy fromCluster endCluster numClusters bits s) := by
  induction bits with
  | nil => intro s _ holds _; exact ⟨holds, rfl⟩
  | cons bit rest ih =>
    intro s bound holds bits
    rw [List.length_cons] at bound ⊢
    refine FlowHolds.andThen (rule.bit (by omega) holds (bits 0 (by simp))) ?_
    intro s' holds' here
    have last : s.clusterId + (rest.length + 1) = s'.clusterId + rest.length := by omega
    rw [last]
    refine ih (by omega) holds' fun p inside => ?_
    have shifted := bits (p + 1) (by simpa using inside)
    rw [show s.clusterId + (p + 1) = s'.clusterId + p by omega] at shifted
    simpa using shifted

theorem length_freeBits (bytes : List UInt8) : (freeBits bytes).length = bytes.length * 8 := by
  simp [freeBits, List.length_flatMap]

theorem getElem_freeBits (bytes : List UInt8) (p : Nat) (inside : p < (freeBits bytes).length)
    (byte : p / 8 < bytes.length) : (freeBits bytes)[p] = isFree bytes[p / 8] (p % 8) := by
  induction bytes generalizing p with
  | nil => simp at byte
  | cons x rest ih =>
    have split : freeBits (x :: rest) = (List.range 8).map (isFree x) ++ freeBits rest := rfl
    by_cases small : p < 8
    · have zero : p / 8 = 0 := by omega
      have same : p % 8 = p := by omega
      simp only [split, zero, same, List.getElem_cons_zero]
      rw [List.getElem_append_left (by simpa using small)]
      simp
    · have one : p / 8 = (p - 8) / 8 + 1 := by omega
      have same : p % 8 = (p - 8) % 8 := by omega
      have rest_ : p - 8 < (freeBits rest).length := by
        rw [split, List.length_append, List.length_map, List.length_range] at inside
        omega
      simp only [split, one, same, List.getElem_cons_succ]
      rw [List.getElem_append_right (by simpa using small)]
      simp only [List.length_map, List.length_range]
      exact ih (p - 8) rest_ (by simp only [one, List.length_cons] at byte; omega)

theorem isFree_full (bit : Nat) (small : bit < 8) : isFree 0xFF bit = false := by
  exact (by decide : ∀ bit < 8, isFree 0xFF bit = false) bit small

/-- Skipping a chunk without a free bit is the same as scanning its bits. -/
theorem scanChunk_spec (rule : ScanRule free policy fromCluster endCluster numClusters inv found) {chunk : List UInt8}
    (four : chunk.length = 4) {s : ScanState} (bound : s.clusterId + 32 < 2 ^ 32) (holds : inv s)
    (bits : ∀ p (inside : p / 8 < chunk.length), isFree chunk[p / 8] (p % 8) = true ↔ free (s.clusterId + p)) :
    FlowHolds inv found endCluster (s.clusterId + 32)
      (scanChunk policy fromCluster endCluster numClusters chunk s) := by
  unfold scanChunk
  by_cases full : chunk.all (· == 0xFF)
  · rw [if_pos full]
    refine rule.skip (by decide) bound holds fun c _ start below _ => ?_
    have index : (c - s.clusterId) / 8 < chunk.length := by omega
    have byte : chunk[(c - s.clusterId) / 8] = 0xFF := by
      have all := List.all_eq_true.mp full _ (List.getElem_mem index)
      simpa using all
    have bit := bits (c - s.clusterId) index
    rw [byte, isFree_full _ (Nat.mod_lt _ (by decide)), show s.clusterId + (c - s.clusterId) = c by omega]
      at bit
    simpa using bit
  · rw [if_neg full]
    have length : (freeBits chunk).length = 32 := by rw [length_freeBits, four]
    have flow : FlowHolds inv found endCluster (s.clusterId + (freeBits chunk).length)
        (scanBits policy fromCluster endCluster numClusters (freeBits chunk) s) := by
      refine scanBits_spec rule _ (by rw [length]; exact bound) holds fun p inside => ?_
      rw [getElem_freeBits chunk p inside (by omega)]
      exact bits p (by omega)
    rwa [length] at flow

theorem scanChunks_spec (rule : ScanRule free policy fromCluster endCluster numClusters inv found)
    (chunks : List (List UInt8)) :
    ∀ {s : ScanState}, (∀ chunk ∈ chunks, chunk.length = 4) → s.clusterId + chunks.length * 32 < 2 ^ 32 → inv s →
    (∀ k (inside : k < chunks.length) p (byte : p / 8 < chunks[k].length),
      isFree chunks[k][p / 8] (p % 8) = true ↔ free (s.clusterId + k * 32 + p)) →
    FlowHolds inv found endCluster (s.clusterId + chunks.length * 32)
      (scanChunks policy fromCluster endCluster numClusters chunks s) := by
  induction chunks with
  | nil => intro s _ _ holds _; exact ⟨holds, by simp⟩
  | cons chunk rest ih =>
    intro s four bound holds bits
    rw [List.length_cons] at bound ⊢
    have head : FlowHolds inv found endCluster (s.clusterId + 32)
        (scanChunk policy fromCluster endCluster numClusters chunk s) := by
      refine scanChunk_spec rule (four chunk (by simp)) (by omega) holds fun p byte => ?_
      have first := bits 0 (Nat.succ_pos _) p byte
      rwa [Nat.zero_mul, Nat.add_zero] at first
    refine head.andThen ?_
    intro s' holds' here
    have last : s.clusterId + (rest.length + 1) * 32 = s'.clusterId + rest.length * 32 := by omega
    rw [last]
    refine ih (fun c member => four c (by simp [member])) (by omega) holds' ?_
    intro k inside p byte
    have shifted := bits (k + 1) (by simpa using inside) p byte
    rw [show s.clusterId + (k + 1) * 32 + p = s'.clusterId + k * 32 + p by omega] at shifted
    simpa using shifted

end Scan

end ExFatSlim
