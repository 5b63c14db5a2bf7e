import ExFatSlim.ReadOnly
import ExFatSlim.Slots
import ExFatSlim.WriteSplice

namespace ExFatSlim

open DirectoryEntryChain (dirEntriesPerBlock)

namespace Volume

variable {size : Nat}

/-- The entries of a directory with the clusters `cs`, in order. -/
def dirEntries (v : Volume size) (cs : List Nat) : List DirSlot := cs.flatMap v.dirSlots

/-- No entry of these clusters marks the end of the directory. -/
def Unmarked (v : Volume size) (cs : List Nat) : Prop := ∀ e ∈ v.dirEntries cs, isEndOfDirectory e.1 = false

/-- The FAT leads through the clusters as far as no end marker stands before. -/
def Followed (v : Volume size) (cs : List Nat) : Prop :=
  ∀ i c, cs[i]? = some c → v.Unmarked (cs.take (i + 1)) → v.next c = cs[i + 1]?

theorem dirSlots_eq (v : Volume size) (c : Nat) :
    v.dirSlots c = (List.range' 0 v.clusterSlots).map (v.dirSlot c) := by
  rw [dirSlots, List.range_eq_range']

theorem clusterSlots_pos {home : Nat → CacheKind} {v : Volume size} (room : rawEntryLen ≤ size)
    (layout : Layout size home v.setup) : 0 < v.clusterSlots :=
  Nat.mul_pos layout.sectorsPerCluster (Nat.div_pos room (by decide))

theorem dirSlots_split {home : Nat → CacheKind} {v : Volume size} (room : rawEntryLen ≤ size)
    (layout : Layout size home v.setup) (c : Nat) :
    v.dirSlots c = v.dirSlot c 0 :: (List.range' 1 (v.clusterSlots - 1)).map (v.dirSlot c) := by
  have some_ := clusterSlots_pos room layout
  obtain ⟨m, slots⟩ : ∃ m, v.clusterSlots = m + 1 := ⟨v.clusterSlots - 1, by omega⟩
  rw [dirSlots_eq, slots, List.range'_succ]
  rfl

theorem dirEntries_cons (v : Volume size) (c : Nat) (cs : List Nat) :
    v.dirEntries (c :: cs) = v.dirSlots c ++ v.dirEntries cs := List.flatMap_cons ..

theorem unmarked_cons (v : Volume size) (c : Nat) (cs : List Nat) :
    v.Unmarked (c :: cs) ↔ (∀ e ∈ v.dirSlots c, isEndOfDirectory e.1 = false) ∧ v.Unmarked cs := by
  simp only [Unmarked, dirEntries_cons, List.mem_append]
  exact ⟨fun all => ⟨fun e here => all e (Or.inl here), fun e there => all e (Or.inr there)⟩,
    fun both e member => member.elim (both.1 e) (both.2 e)⟩

/-- What is asked of the FAT, cluster by cluster. -/
theorem followed_cons (v : Volume size) (c : Nat) (cs : List Nat) :
    v.Followed (c :: cs) ↔
      ((∀ e ∈ v.dirSlots c, isEndOfDirectory e.1 = false) → v.next c = cs.head? ∧ v.Followed cs) := by
  constructor
  · intro followed unmarked
    refine ⟨?_, fun i d here before => ?_⟩
    · rw [List.head?_eq_getElem?]
      refine followed 0 c rfl ?_
      rw [List.take_succ_cons, List.take_zero, unmarked_cons]
      exact ⟨unmarked, by simp [Unmarked, dirEntries]⟩
    · refine followed (i + 1) d here ?_
      rw [List.take_succ_cons, unmarked_cons]
      exact ⟨unmarked, before⟩
  · intro rest i d here before
    rw [List.take_succ_cons, unmarked_cons] at before
    obtain ⟨follow, followed⟩ := rest before.1
    cases i with
    | zero =>
      cases Option.some.inj here
      rw [follow, List.head?_eq_getElem?]
      rfl
    | succ i => exact followed i d here before.2

end Volume

namespace Scan

open DirectoryEntryChain

variable {size n : Nat} {home : Nat → CacheKind} {v : Volume size} {c k : Nat} {s : Scan size n}

theorem free_of_unlimited (unlimited : s.chain.numEntries = none) : s.Free := by
  simp [Free, unlimited]

section Visits

variable (room : rawEntryLen ≤ size) (layout : Layout size home v.setup) (inHeap : v.InHeap c)
  (data : v.IsData home c)

include room layout inHeap data

/-- The rest of a cluster, and then what comes after it. -/
theorem Stands.visits_cluster {stop : RawDirEntry → Bool} {rest : List DirSlot} (j : Nat) :
    ∀ {k : Nat} {s : Scan size n},
    k + j = v.clusterSlots → Stands home v c k s → s.chain.numEntries = none →
    ((∀ e ∈ (List.range' k j).map (v.dirSlot c), stop e.1 = false) → ∀ s' : Scan size n,
      Stands home v c v.clusterSlots s' → s'.chain.numEntries = none → Visits home v stop rest s') →
    Visits home v stop ((List.range' k j).map (v.dirSlot c) ++ rest) s := by
  induction j with
  | zero =>
    intro k s whole stands unlimited after
    rw [Nat.add_zero] at whole
    exact after (by simp) s (whole ▸ stands) unlimited
  | succ j ih =>
    intro k s whole stands unlimited after
    obtain ⟨s', run, stands', _, limit⟩ :=
      stands.next_within room layout (free_of_unlimited unlimited) inHeap data (by omega)
    rw [List.range'_succ, List.map_cons, List.cons_append]
    cases halt : stop (v.dirSlot c k).1 with
    | true => exact .stopped stands.toShows run stands'.toShows halt
    | false =>
      refine .visited stands.toShows run halt (ih (by omega) stands' (limit.trans unlimited) ?_)
      intro none_
      refine after ?_
      rw [List.range'_succ, List.map_cons]
      exact List.forall_mem_cons.mpr ⟨halt, none_⟩

/-- Conversely, what is visited after a cluster without a stop. -/
theorem Stands.after_cluster {stop : RawDirEntry → Bool} {rest : List DirSlot} (j : Nat) :
    ∀ {k : Nat} {s : Scan size n},
    k + j = v.clusterSlots → Stands home v c k s → s.chain.numEntries = none →
    (∀ e ∈ (List.range' k j).map (v.dirSlot c), stop e.1 = false) →
    Visits home v stop ((List.range' k j).map (v.dirSlot c) ++ rest) s →
    ∃ s' : Scan size n, Stands home v c v.clusterSlots s' ∧ s'.chain.numEntries = none ∧
      Visits home v stop rest s' := by
  induction j with
  | zero =>
    intro k s whole stands unlimited _ visits
    rw [Nat.add_zero] at whole
    exact ⟨s, whole ▸ stands, unlimited, visits⟩
  | succ j ih =>
    intro k s whole stands unlimited none_ visits
    obtain ⟨s', run, stands', _, limit⟩ :=
      stands.next_within room layout (free_of_unlimited unlimited) inHeap data (by omega)
    rw [List.range'_succ, List.map_cons] at none_
    rw [List.range'_succ, List.map_cons, List.cons_append] at visits
    cases visits with
    | stopped _ _ _ halt =>
      have going := none_ _ List.mem_cons_self
      rw [halt] at going
      cases going
    | visited _ run' _ visits =>
      cases (Prod.mk.inj (run.symm.trans run')).2
      exact ih (by omega) stands' (limit.trans unlimited)
        (fun e member => none_ e (List.mem_cons_of_mem _ member)) visits

end Visits

theorem getHeapSectorId_ok {σ : Type} {fs : FileSystemDetails} {c x : Nat} {s s' : σ}
    (run : (fs.getHeapSectorId c : ExFat σ Nat) s = (.ok x, s')) :
    x = fs.clusterHeapOffset + (c - 2) * fs.sectorsPerCluster ∧ s' = s := by
  unfold FileSystemDetails.getHeapSectorId at run
  split at run
  · cases run
  · exact (u32_ok run).2

theorem getCurrentSectorId_ok {x : Nat} {s' : Scan size n} (run : getCurrentSectorId s = (.ok x, s')) :
    x = s.chain.fs.clusterHeapOffset + (s.chain.clusterId - 2) * s.chain.fs.sectorsPerCluster +
      s.chain.clusterOffset ∧ s' = s := by
  rw [getCurrentSectorId, Exec.bind_of_ok (Exec.get_apply s)] at run
  obtain ⟨start, s₁, first, second⟩ := Exec.bind_eq_ok.mp run
  obtain ⟨rfl, rfl⟩ := getHeapSectorId_ok first
  exact (u32_ok second).2

theorem handOver_ok {r : Option DirSlot} {s' : Scan size n} (run : handOver s = (.ok r, s')) :
    ∃ e, r = some e ∧ e.2.sectorId = s.chain.fs.clusterHeapOffset +
      (s.chain.clusterId - 2) * s.chain.fs.sectorsPerCluster + s.chain.clusterOffset := by
  rw [handOver, Exec.bind_of_ok (Exec.get_apply s)] at run
  by_cases inside : s.chain.dirEntryOffset < dirEntriesPerBlock size
  · rw [Exec.bind_of_ok (Exec.assert_of inside s)] at run
    obtain ⟨x, s₂, second, run⟩ := Exec.bind_eq_ok.mp run
    obtain ⟨rfl, rfl⟩ := getCurrentSectorId_ok second
    cases run
    exact ⟨_, rfl, rfl⟩
  · rw [Exec.assert, if_neg inside] at run
    cases run

theorem fetch_ok {s' : Scan size n} (run : fetch s = (.ok (), s')) :
    s'.chain = { s.chain with buf := s'.chain.buf, fetchRequired := false } := by
  obtain ⟨x, s₁, first, rest⟩ := Exec.bind_eq_ok.mp run
  obtain ⟨_, rfl⟩ := getCurrentSectorId_ok first
  obtain ⟨b, s₂, second, last⟩ := Exec.bind_eq_ok.mp rest
  obtain ⟨fs', _, rfl⟩ := Exec.zoom_eq second
  cases last
  rfl

/-- Whatever `deliver` returns was read from the current sector. -/
theorem deliver_ok {r : Option DirSlot} {s' : Scan size n} (run : deliver s = (.ok r, s')) :
    ∃ e, r = some e ∧ e.2.sectorId = s.chain.fs.clusterHeapOffset +
      (s.chain.clusterId - 2) * s.chain.fs.sectorsPerCluster + s.chain.clusterOffset := by
  rw [deliver, Exec.bind_of_ok (Exec.get_apply s)] at run
  split at run
  · obtain ⟨_, s₁, fetched, run⟩ := Exec.bind_eq_ok.mp run
    have same := handOver_ok run
    rwa [fetch_ok fetched] at same
  · exact handOver_ok run

variable (room : rawEntryLen ≤ size) (layout : Layout size home v.setup)

include room layout

/-- A reader that is sent to a cluster delivers what it finds there, whether it belongs to the directory or not. -/
theorem Stands.next_sent (stands : Stands home v c v.clusterSlots s) (unlimited : s.chain.numEntries = none)
    (inHeap : v.InHeap c) {d : Nat} (follow : v.next c = some d) {r : Option DirSlot} {s' : Scan size n}
    (run : next s = (.ok r, s')) : ∃ e, r = some e ∧ e.2.sectorId = v.dataSector d 0 := by
  obtain ⟨s₁, turn, _, shown⟩ := turnPage_end room stands.sound layout stands.volume inHeap stands.place
  rw [follow] at turn shown
  have chain : s₁.chain = s.chain.turned.entered d := (Prod.mk.inj shown).2
  rw [next_eq, if_neg (free_of_unlimited unlimited), Exec.bind_of_ok turn] at run
  obtain ⟨e, found, place⟩ := deliver_ok run
  refine ⟨e, found, place.trans ?_⟩
  rw [chain, entered, (stands.place.turned room).details]
  rfl

/-- The clusters that the reader visits after the end of one are those that the FAT names. -/
theorem Stands.next_head (stands : Stands home v c v.clusterSlots s) (unlimited : s.chain.numEntries = none)
    (inHeap : v.InHeap c) {stop : RawDirEntry → Bool} {cs : List Nat} (low : ∀ d ∈ cs, 2 ≤ d)
    (visits : Visits home v stop (v.dirEntries cs) s) : v.next c = cs.head? := by
  cases follow : v.next c with
  | none =>
    obtain ⟨s', run, _⟩ := stands.next_stops room layout (free_of_unlimited unlimited) inHeap follow
    cases cs with
    | nil => rfl
    | cons d ds =>
      rw [Volume.dirEntries_cons, Volume.dirSlots_split room layout] at visits
      cases visits with
      | stopped _ run' => cases run.symm.trans run'
      | visited _ run' => cases run.symm.trans run'
  | some e =>
    have atLeast : 2 ≤ e := by
      unfold Volume.next at follow
      split at follow
      · rename_i range
        cases follow
        exact range.1
      · cases follow
    cases cs with
    | nil =>
      cases visits with
      | ended _ run =>
        obtain ⟨e, some_, _⟩ := stands.next_sent room layout unlimited inHeap follow run
        cases some_
    | cons d ds =>
      have delivered : ∃ s', next s = (.ok (some (v.dirSlot d 0)), s') := by
        rw [Volume.dirEntries_cons, Volume.dirSlots_split room layout] at visits
        cases visits with
        | stopped _ run => exact ⟨_, run⟩
        | visited _ run => exact ⟨_, run⟩
      obtain ⟨s', run⟩ := delivered
      obtain ⟨found, same, place⟩ := stands.next_sent room layout unlimited inHeap follow run
      cases Option.some.inj same
      have sector : v.dataSector d 0 = v.dataSector e 0 := by
        rw [← place, Volume.dirSlot, Volume.slotLocation, Nat.zero_div]
      have pos := layout.sectorsPerCluster
      rw [(Volume.dataSector_inj (low d List.mem_cons_self) atLeast pos pos sector).1]
      rfl

omit room layout in
/-- The next entry that the reader delivers is the first one of a cluster. -/
structure Enters (home : Nat → CacheKind) (v : Volume size) (c : Nat) (s : Scan size n) : Prop extends
    Shows home v s where
  first : ∃ s', next s = (.ok (some (v.dirSlot c 0)), s') ∧ Stands home v c 1 s' ∧ s'.chain.numEntries = none

theorem new_enters {fs : FileSystem size n} (sound : fs.Sound home) (shown : fs.volume home = v)
    (inHeap : v.InHeap c) (data : v.IsData home c) : Enters home v c ⟨fs, .new c fs.fs⟩ := by
  have details : fs.fs = v.setup.details := congrArg (fun v : Volume size => v.setup.details) shown
  have stands : Stands home v c 0 ⟨fs, .new c fs.fs⟩ := ⟨⟨sound, shown⟩, details ▸ new_at c⟩
  obtain ⟨s', run, stands', _, limit⟩ := stands.next_within room layout (free_of_unlimited rfl) inHeap data
    (Volume.clusterSlots_pos room layout)
  exact ⟨stands.toShows, s', run, stands', limit⟩

theorem Stands.enters (stands : Stands home v c v.clusterSlots s) (unlimited : s.chain.numEntries = none)
    (inHeap : v.InHeap c) {d : Nat} (follow : v.next c = some d) (inHeap' : v.InHeap d) (data : v.IsData home d) :
    Enters home v d s := by
  obtain ⟨s', run, stands', limit⟩ :=
    stands.next_entered room layout (free_of_unlimited unlimited) inHeap follow inHeap' data
  exact ⟨stands.toShows, s', run, stands', limit.trans unlimited⟩

theorem Enters.visits (enters : Enters home v c s) (inHeap : v.InHeap c) (data : v.IsData home c)
    {stop : RawDirEntry → Bool} {rest : List DirSlot}
    (after : (∀ e ∈ v.dirSlots c, stop e.1 = false) → ∀ s' : Scan size n, Stands home v c v.clusterSlots s' →
      s'.chain.numEntries = none → Visits home v stop rest s') : Visits home v stop (v.dirSlots c ++ rest) s := by
  have some_ := Volume.clusterSlots_pos room layout
  obtain ⟨s', run, stands, unlimited⟩ := enters.first
  rw [Volume.dirSlots_split room layout] at after ⊢
  rw [List.cons_append]
  cases halt : stop (v.dirSlot c 0).1 with
  | true => exact .stopped enters.toShows run stands.toShows halt
  | false =>
    refine .visited enters.toShows run halt
      (stands.visits_cluster room layout inHeap data _ (by omega) unlimited fun none_ => after ?_)
    exact List.forall_mem_cons.mpr ⟨halt, none_⟩

theorem Enters.after (enters : Enters home v c s) (inHeap : v.InHeap c) (data : v.IsData home c)
    {stop : RawDirEntry → Bool} {rest : List DirSlot} (none_ : ∀ e ∈ v.dirSlots c, stop e.1 = false)
    (visits : Visits home v stop (v.dirSlots c ++ rest) s) :
    ∃ s' : Scan size n, Stands home v c v.clusterSlots s' ∧ s'.chain.numEntries = none ∧
      Visits home v stop rest s' := by
  have some_ := Volume.clusterSlots_pos room layout
  obtain ⟨s', run, stands, unlimited⟩ := enters.first
  rw [Volume.dirSlots_split room layout] at none_ visits
  rw [List.cons_append] at visits
  cases visits with
  | stopped _ _ _ halt =>
    have going := none_ _ List.mem_cons_self
    rw [halt] at going
    cases going
  | visited _ run' _ visits =>
    cases (Prod.mk.inj (run.symm.trans run')).2
    exact stands.after_cluster room layout inHeap data _ (by omega) unlimited
      (fun e member => none_ e (List.mem_cons_of_mem _ member)) visits

/-- The reader visits exactly the entries of the clusters, up to the end marker,
when the FAT leads from each of them to the next one. -/
theorem Enters.visits_iff (cs : List Nat) : ∀ {c : Nat} {s : Scan size n}, Enters home v c s →
    (∀ d ∈ c :: cs, v.InHeap d) → (∀ d ∈ c :: cs, v.IsData home d) →
    (Visits home v isEndOfDirectory (v.dirEntries (c :: cs)) s ↔ v.Followed (c :: cs)) := by
  induction cs with
  | nil =>
    intro c s enters inHeap data
    have here := inHeap c List.mem_cons_self
    have data := data c List.mem_cons_self
    rw [Volume.dirEntries_cons, Volume.followed_cons]
    constructor
    · intro visits unmarked
      obtain ⟨s', stands, unlimited, visits⟩ := enters.after room layout here data unmarked visits
      exact ⟨stands.next_head room layout unlimited here (List.forall_mem_nil _) visits, fun i d none_ =>
        by simp at none_⟩
    · intro followed
      refine enters.visits room layout here data fun unmarked s' stands unlimited => ?_
      obtain ⟨s'', run, shows⟩ :=
        stands.next_stops room layout (free_of_unlimited unlimited) here (followed unmarked).1
      exact .ended stands.toShows run shows
  | cons d ds ih =>
    intro c s enters inHeap data
    have here := inHeap c List.mem_cons_self
    have dataHere := data c List.mem_cons_self
    have later := List.forall_mem_of_forall_mem_cons inHeap
    have dataLater := List.forall_mem_of_forall_mem_cons data
    rw [Volume.dirEntries_cons, Volume.followed_cons]
    constructor
    · intro visits unmarked
      obtain ⟨s', stands, unlimited, visits⟩ := enters.after room layout here dataHere unmarked visits
      have follow := stands.next_head room layout unlimited here (fun e member => (later e member).1) visits
      have enters' := stands.enters room layout unlimited here follow (later d List.mem_cons_self)
        (dataLater d List.mem_cons_self)
      exact ⟨follow, (ih enters' later dataLater).mp visits⟩
    · intro followed
      refine enters.visits room layout here dataHere fun unmarked s' stands unlimited => ?_
      obtain ⟨follow, rest⟩ := followed unmarked
      have enters' := stands.enters room layout unlimited here follow (later d List.mem_cons_self)
        (dataLater d List.mem_cons_self)
      exact (ih enters' later dataLater).mpr rest

end Scan

/-- The in-use bit of an entry is set. -/
def InUse (entry : RawDirEntry) : Prop := entry.byte 0 &&& 0x80 ≠ 0

instance (entry : RawDirEntry) : Decidable (InUse entry) := inferInstanceAs (Decidable (_ ≠ _))

theorem EntryType.ofByte_zero {x : UInt8} : EntryType.ofByte x = .endOfDirectory ↔ x = 0 := by
  refine ⟨fun same => ?_, fun zero => by rw [zero]; rfl⟩
  by_contra other
  unfold ofByte at same
  rw [if_neg other] at same
  repeat' split at same
  all_goals cases same

theorem EntryType.ofByte_unused {x y : UInt8} (same : EntryType.ofByte x = .unused y) : x &&& 0x80 = 0 := by
  unfold ofByte at same
  repeat' split at same
  all_goals first | assumption | cases same

namespace FileSystem

open DirectoryEntryChain Scan

variable {size n : Nat} {home : Nat → CacheKind} {v : Volume size}

variable (room : rawEntryLen ≤ size) (layout : Layout size home v.setup)

include room layout

/-- A sector with these entries, and zeros after them. -/
def entrySector (es : List RawDirEntry) : Block 512 := fun i => ((es[i.val / 32]?).getD zeroEntry).byte (i.val % 32)

/-- The entry set of a directory `d` with two clusters from cluster 3 on, without a FAT chain. -/
def strandedSet : List RawDirEntry :=
  [FileDirEntry.serialize {
      secondaryCount := 2, setChecksum := 0, fileAttributes := attrDirectory, createTimestamp := minTimestamp
      lastModifiedTimestamp := minTimestamp, lastAccessedTimestamp := minTimestamp, create10msIncrement := 0
      lastModified10msIncrement := 0, createUtcOffset := 0, lastModifiedUtcOffset := 0, lastAccessedUtcOffset := 0 },
    StreamExtensionDirEntry.serialize {
      generalSecondaryFlags := Session.allocatedFlags, nameLength := 1, nameHash := 34, validDataLength := 1024
      firstCluster := 3, dataLength := 1024 },
    fileNameSerialize [100]]

def strandedDetails : FileDetails where
  firstCluster := 3
  dataLength := 1024
  validDataLength := 1024
  attributes := attrDirectory
  location := ⟨100, 0⟩
  flags := Session.allocatedFlags
  secondaryCount := 2
  created := {}
  modified := {}
  accessed := {}

omit room layout

end FileSystem

end ExFatSlim
