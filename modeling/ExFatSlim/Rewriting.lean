import ExFatSlim.DirectoryEdits
import ExFatSlim.Lookup

namespace ExFatSlim

open DirectoryEntryChain (dirEntriesPerBlock next turnPage deliver fetch handOver enterCluster At)

namespace DirectoryEntryChain

variable {size n : Nat} {chain chain' : DirectoryEntryChain size} {fs : FileSystem size n}

/-- Two readers that deliver the same entries from now on, although one of them may hold an old copy of its sector. -/
structure Alike (chain chain' : DirectoryEntryChain size) : Prop where
  same : chain' = { chain with buf := chain'.buf }
  entries : chain.fetchRequired = false → ∀ j, chain.dirEntryOffset ≤ j → j < dirEntriesPerBlock size →
    chain'.buf.chunk rawEntryLen j = chain.buf.chunk rawEntryLen j

theorem Alike.refl (chain : DirectoryEntryChain size) : Alike chain chain := ⟨rfl, fun _ _ _ _ => rfl⟩

theorem Alike.turned (alike : Alike chain chain') : Alike chain.turned chain'.turned := by
  obtain ⟨same, entries⟩ := alike
  rw [same]
  unfold DirectoryEntryChain.turned
  by_cases full : dirEntriesPerBlock size ≤ chain.dirEntryOffset
  · rw [if_pos full, if_pos full]
    exact ⟨rfl, fun fetched => by cases fetched⟩
  · rw [if_neg full, if_neg full]
    exact ⟨rfl, entries⟩

theorem turnPage_alike (alike : Alike chain chain') {r : Except (Fault ExFatError) Bool} {s₁ : Scan size n}
    (run : turnPage ⟨fs, chain⟩ = (r, s₁)) :
    ∃ chain₁, turnPage ⟨fs, chain'⟩ = (r, ⟨s₁.fs, chain₁⟩) ∧ Alike s₁.chain chain₁ := by
  rw [turnPage_eq] at run ⊢
  have turned := alike.turned
  dsimp only at run ⊢
  generalize chain.turned = c at run turned
  generalize chain'.turned = c' at turned ⊢
  obtain ⟨same, entries⟩ := turned
  rw [enterCluster, Exec.bind_of_ok (Exec.get_apply _)] at run ⊢
  dsimp only at run ⊢
  rw [same]
  by_cases past : c.fs.sectorsPerCluster ≤ c.clusterOffset
  · rw [if_pos past] at run ⊢
    rcases follow : Fat.nextClusterInFatChain c.clusterId fs with ⟨e | found, fs'⟩
    · have step : ∀ d : DirectoryEntryChain size,
        (onFs (Fat.nextClusterInFatChain c.clusterId) : ExFat (Scan size n) _) ⟨fs, d⟩ =
          (.error e, ⟨fs', d⟩) := fun d => Exec.zoom_of_run follow
      rw [Exec.bind_of_error (step _)] at run ⊢
      cases run
      exact ⟨_, rfl, rfl, entries⟩
    · have step : ∀ d : DirectoryEntryChain size,
        (onFs (Fat.nextClusterInFatChain c.clusterId) : ExFat (Scan size n) _) ⟨fs, d⟩ =
          (.ok found, ⟨fs', d⟩) := fun d => Exec.zoom_of_run follow
      rw [Exec.bind_of_ok (step _)] at run ⊢
      cases found with
      | none =>
        cases run
        exact ⟨_, rfl, rfl, entries⟩
      | some d =>
        cases run
        exact ⟨_, rfl, rfl, fun fetched => by cases fetched⟩
  · rw [if_neg past] at run ⊢
    cases run
    exact ⟨_, rfl, rfl, entries⟩

theorem getCurrentSectorId_alike (alike : Alike chain chain') {r : Except (Fault ExFatError) Nat} {s₁ : Scan size n}
    (run : getCurrentSectorId (⟨fs, chain⟩ : Scan size n) = (r, s₁)) :
    s₁ = ⟨fs, chain⟩ ∧ getCurrentSectorId ⟨fs, chain'⟩ = (r, ⟨fs, chain'⟩) := by
  have start : ∀ d : DirectoryEntryChain size,
    (chain.fs.getHeapSectorId chain.clusterId : ExFat (Scan size n) Nat) ⟨fs, d⟩ =
      (((chain.fs.getHeapSectorId chain.clusterId : ExFat Unit Nat) ()).1, ⟨fs, d⟩) := by
    intro d
    unfold FileSystemDetails.getHeapSectorId
    generalize chain.fs.clusterHeapOffset + (chain.clusterId - 2) * chain.fs.sectorsPerCluster = sector
    unfold u32
    split
    · rfl
    · split <;> rfl
  rw [alike.same, getCurrentSectorId, Exec.bind_of_ok (Exec.get_apply _)]
  rw [getCurrentSectorId, Exec.bind_of_ok (Exec.get_apply _)] at run
  dsimp only at run ⊢
  rw [Exec.bind_apply, start] at run ⊢
  generalize ((chain.fs.getHeapSectorId chain.clusterId : ExFat Unit Nat) ()).1 = outcome at run ⊢
  cases outcome with
  | error e =>
    cases run
    exact ⟨rfl, rfl⟩
  | ok sector =>
    dsimp only at run ⊢
    unfold u32 at run ⊢
    by_cases small : sector + chain.clusterOffset < 2 ^ 32
    · rw [if_pos small] at run ⊢
      cases run
      exact ⟨rfl, rfl⟩
    · rw [if_neg small] at run ⊢
      cases run
      exact ⟨rfl, rfl⟩

theorem handOver_alike (alike : Alike chain chain') (fetched : chain.fetchRequired = false) {r : Option DirSlot}
    {s₁ : Scan size n}
    (run : handOver ⟨fs, chain⟩ = (.ok r, s₁)) :
    ∃ chain₁, handOver ⟨fs, chain'⟩ = (.ok r, ⟨s₁.fs, chain₁⟩) ∧ Alike s₁.chain chain₁ := by
  have offset : chain'.dirEntryOffset = chain.dirEntryOffset := by rw [alike.same]
  rw [handOver, Exec.bind_of_ok (Exec.get_apply _)] at run ⊢
  dsimp only at run ⊢
  rw [offset]
  by_cases inside : chain.dirEntryOffset < dirEntriesPerBlock size
  · rw [Exec.bind_of_ok (Exec.assert_of inside _)] at run ⊢
    obtain ⟨x, s₂, sector, run⟩ := Exec.bind_eq_ok.mp run
    obtain ⟨rfl, sector'⟩ := getCurrentSectorId_alike alike sector
    cases run
    rw [Exec.bind_of_ok sector', alike.entries fetched _ le_rfl inside]
    refine ⟨_, rfl, ?_, fun _ j later small => alike.entries fetched j (Nat.le_of_succ_le later) small⟩
    rw [alike.same]
  · rw [Exec.assert, if_neg inside] at run
    cases run

theorem deliver_alike (alike : Alike chain chain') {r : Option DirSlot} {s₁ : Scan size n}
    (run : deliver ⟨fs, chain⟩ = (.ok r, s₁)) :
    ∃ chain₁, deliver ⟨fs, chain'⟩ = (.ok r, ⟨s₁.fs, chain₁⟩) ∧ Alike s₁.chain chain₁ := by
  have required : chain'.fetchRequired = chain.fetchRequired := by rw [alike.same]
  rw [deliver, Exec.bind_of_ok (Exec.get_apply _)] at run ⊢
  dsimp only at run ⊢
  rw [required]
  by_cases fetches : chain.fetchRequired = true
  · rw [if_pos fetches] at run ⊢
    obtain ⟨_, s₂, fetched, run₂⟩ := Exec.bind_eq_ok.mp run
    obtain ⟨x, s₃, sector, rest⟩ := Exec.bind_eq_ok.mp fetched
    obtain ⟨rfl, sector'⟩ := getCurrentSectorId_alike alike sector
    obtain ⟨b, s₄, zoomed, last⟩ := Exec.bind_eq_ok.mp rest
    obtain ⟨fs', read, rfl⟩ := Exec.zoom_eq zoomed
    cases last
    have fetched' : fetch ⟨fs, chain'⟩ = (.ok (), ⟨fs', { chain' with buf := b, fetchRequired := false }⟩) := by
      have read' : (onFs (FileSystem.onCache .data (SlotCache.read x)) : ExFat (Scan size n) _) ⟨fs, chain'⟩ =
        (.ok b, ⟨fs', chain'⟩) :=
        Exec.zoom_of_run read
      rw [fetch, Exec.bind_of_ok sector', Exec.bind_of_ok read']
      rfl
    rw [Exec.bind_of_ok fetched']
    have alike₂ : Alike { chain with buf := b, fetchRequired := false }
        { chain' with buf := b, fetchRequired := false } := by
      refine ⟨?_, fun _ _ _ _ => rfl⟩
      rw [alike.same]
    exact handOver_alike alike₂ rfl run₂
  · rw [if_neg fetches] at run ⊢
    exact handOver_alike alike (Bool.eq_false_iff.mpr fetches) run

/-- Readers that are alike deliver the same entry, and are alike again. -/
theorem next_alike (alike : Alike chain chain') {r : Option DirSlot} {s₁ : Scan size n}
    (run : next ⟨fs, chain⟩ = (.ok r, s₁)) :
    ∃ chain₁, next ⟨fs, chain'⟩ = (.ok r, ⟨s₁.fs, chain₁⟩) ∧ Alike s₁.chain chain₁ := by
  have limit : chain'.numEntries = chain.numEntries ∧ chain'.cursor = chain.cursor := by
    rw [alike.same]
    exact ⟨rfl, rfl⟩
  rw [next_eq] at run ⊢
  dsimp only at run ⊢
  rw [limit.1, limit.2]
  by_cases full : chain.numEntries = some chain.cursor
  · rw [if_pos full] at run ⊢
    cases run
    exact ⟨chain', rfl, alike⟩
  · rw [if_neg full] at run ⊢
    obtain ⟨more, s₂, turn, run⟩ := Exec.bind_eq_ok.mp run
    obtain ⟨chain₂, turn', alike₂⟩ := turnPage_alike alike turn
    rw [Exec.bind_of_ok turn']
    cases more with
    | false =>
      cases run
      exact ⟨chain₂, rfl, alike₂⟩
    | true => exact deliver_alike alike₂ run

/-- Delivering an entry counts it. -/
theorem next_counts {s s' : Scan size n} {e : DirSlot} (run : next s = (.ok (some e), s')) :
    s'.chain.cursor = s.chain.cursor + 1 ∧ s'.chain.numEntries = s.chain.numEntries := by
  rw [next_eq] at run
  by_cases full : s.chain.numEntries = some s.chain.cursor
  · rw [if_pos full] at run
    cases run
  · rw [if_neg full] at run
    obtain ⟨more, s₁, turn, run⟩ := Exec.bind_eq_ok.mp run
    have turned : s₁.chain.cursor = s.chain.cursor ∧ s₁.chain.numEntries = s.chain.numEntries := by
      rw [turnPage_eq, enterCluster, Exec.bind_of_ok (Exec.get_apply _)] at turn
      dsimp only at turn
      have kept := @turned_cursor _ s.chain
      split at turn
      · obtain ⟨found, s₂, follow, turn⟩ := Exec.bind_eq_ok.mp turn
        obtain ⟨fs', _, rfl⟩ := Exec.zoom_eq follow
        cases found <;> cases turn <;> exact kept
      · cases turn
        exact kept
    cases more with
    | false => cases run
    | true =>
      have handed : ∀ {t : Scan size n}, handOver t = (.ok (some e), s') →
          s'.chain.cursor = t.chain.cursor + 1 ∧ s'.chain.numEntries = t.chain.numEntries := by
        intro t run
        rw [handOver, Exec.bind_of_ok (Exec.get_apply t)] at run
        by_cases inside : t.chain.dirEntryOffset < dirEntriesPerBlock size
        · rw [Exec.bind_of_ok (Exec.assert_of inside t)] at run
          obtain ⟨_, t₃, sector, last⟩ := Exec.bind_eq_ok.mp run
          obtain ⟨_, rfl⟩ := Scan.getCurrentSectorId_ok sector
          cases last
          exact ⟨rfl, rfl⟩
        · rw [Exec.assert, if_neg inside] at run
          cases run
      have run : deliver s₁ = (.ok (some e), s') := run
      rw [deliver, Exec.bind_of_ok (Exec.get_apply _)] at run
      split at run
      · obtain ⟨_, s₂, fetched, run⟩ := Exec.bind_eq_ok.mp run
        have counted := handed run
        rw [Scan.fetch_ok fetched] at counted
        exact ⟨counted.1.trans (congrArg (· + 1) turned.1), counted.2.trans turned.2⟩
      · have counted := handed run
        exact ⟨counted.1.trans (congrArg (· + 1) turned.1), counted.2.trans turned.2⟩

end DirectoryEntryChain

namespace Volume

variable {size : Nat} {home : Nat → CacheKind} {v v' v'' : Volume size} {c first : Nat} {cs : List Nat}

theorem dirEntries_get (some_ : 0 < v.clusterSlots) (cs : List Nat) : ∀ i,
    (v.dirEntries cs)[i]? = (cs[i / v.clusterSlots]?).map fun c => v.dirSlot c (i % v.clusterSlots) := by
  induction cs with
  | nil => intro i; simp [dirEntries]
  | cons c cs ih =>
    intro i
    have length : (v.dirSlots c).length = v.clusterSlots := by rw [dirSlots, List.length_map, List.length_range]
    rw [dirEntries_cons]
    by_cases first : i < v.clusterSlots
    · rw [List.getElem?_append_left (by omega), Nat.div_eq_of_lt first, Nat.mod_eq_of_lt first, dirSlots,
        List.getElem?_map,
        List.getElem?_range first]
      rfl
    · obtain ⟨j, rfl⟩ : ∃ j, i = v.clusterSlots + j := ⟨i - v.clusterSlots, by omega⟩
      rw [List.getElem?_append_right (by omega), length, Nat.add_sub_cancel_left, ih, Nat.add_div_left _ some_,
        Nat.add_mod_left,
        List.getElem?_cons_succ]

/-- The entries of a directory by cluster and number within it. -/
theorem dirEntries_at (some_ : 0 < v.clusterSlots) {q k : Nat} (cluster : cs[q]? = some c)
    (inside : k < v.clusterSlots) :
    (v.dirEntries cs)[q * v.clusterSlots + k]? = some (v.dirSlot c k) := by
  rw [dirEntries_get some_, Nat.mul_comm, Nat.mul_add_div some_, Nat.div_eq_of_lt inside, Nat.add_zero, cluster,
    Nat.mul_add_mod,
    Nat.mod_eq_of_lt inside]
  rfl

/-- A volume with other directory entries or file contents, read at another time. -/
structure Edited (home : Nat → CacheKind) (v v' : Volume size) : Prop where
  setup : v'.setup = { v.setup with clock := v'.setup.clock }
  others : ∀ s, home s ≠ .data → v'.sectors s = v.sectors s

theorem Edited.refl (v : Volume size) : Edited home v v := ⟨rfl, fun _ _ => rfl⟩

theorem Edited.trans (one : Edited home v v') (two : Edited home v' v'') : Edited home v v'' := by
  refine ⟨?_, fun s foreign => (two.others s foreign).trans (one.others s foreign)⟩
  have setup := two.setup
  rw [one.setup] at setup
  exact setup

theorem tick_edited (v : Volume size) : Edited home v v.tick := ⟨tick_setup v, fun _ _ => by rw [tick_sectors]⟩

theorem putEntry_edited (v : Volume size) {place : Location} (here : home place.sectorId = .data)
    (raw : RawDirEntry) :
    Edited home v (v.putEntry place raw) := ⟨rfl, (store_rewritten v here _).others⟩

/-- The same volume at another time. -/
def atClock (v : Volume size) (clock : Nat) : Volume size := { v with setup := { v.setup with clock } }

theorem Edited.rewritten (edited : Edited home v v') : Rewritten home (v.atClock v'.setup.clock) v' :=
  ⟨edited.setup, edited.others⟩

section Edited

variable (edited : Edited home v v')

include edited

theorem Edited.details : v'.setup.details = v.setup.details := by rw [edited.setup]

theorem Edited.layout (layout : Layout size home v.setup) : Layout size home v'.setup := by
  rw [edited.setup]
  exact layout.of_same rfl rfl rfl rfl

theorem Edited.clusterSlots : v'.clusterSlots = v.clusterSlots := by
  rw [Volume.clusterSlots, Volume.clusterSlots, edited.details]

theorem Edited.slotLocation (c k : Nat) : v'.slotLocation c k = v.slotLocation c k := by
  rw [Volume.slotLocation, Volume.slotLocation, dataSector, dataSector, edited.details]

theorem Edited.isFree (layout : Layout size home v.setup) (inHeap : v.InHeap c) : v'.IsFree c ↔ v.IsFree c :=
  edited.rewritten.isFree
    (layout.of_same rfl rfl rfl rfl : Layout size home (v.atClock v'.setup.clock).setup).toBitmapLayout inHeap

theorem Edited.fatEntry (layout : Layout size home v.setup) (inHeap : v.InHeap c) : v'.fatEntry c = v.fatEntry c :=
  edited.rewritten.fatEntry
    (layout.of_same rfl rfl rfl rfl : Layout size home (v.atClock v'.setup.clock).setup) inHeap

end Edited

theorem putEntries_edited (raws : List RawDirEntry) : ∀ {k : Nat} {v : Volume size},
    (∀ j < raws.length, home (v.slotLocation c (k + j)).sectorId = .data) →
      Edited home v (putEntries c k raws v) := by
  induction raws with
  | nil => exact fun _ => .refl _
  | cons raw raws ih =>
    intro k v data
    have first : home (v.slotLocation c k).sectorId = .data := data 0 (Nat.succ_pos _)
    refine (putEntry_edited v first raw).trans (ih fun j below => ?_)
    rw [putEntry_slotLocation, Nat.add_right_comm]
    exact data (j + 1) (Nat.succ_lt_succ below)

/-- Clusters of a directory, the FAT leading from each to the next. -/
structure Walk (home : Nat → CacheKind) (v : Volume size) (cs : List Nat) : Prop where
  linked : v.Linked cs
  distinct : cs.Nodup
  inHeap : ∀ c ∈ cs, v.InHeap c
  data : ∀ c ∈ cs, v.IsData home c

theorem Directory.walk (dir : v.Directory home first cs) : v.Walk home cs :=
  ⟨dir.threads.linked, dir.distinct, dir.inHeap, dir.data⟩

theorem DirCluster.walk (cell : v.DirCluster home c) : v.Walk home [c] where
  linked := List.isChain_singleton c
  distinct := List.nodup_singleton c
  inHeap := by simpa using cell.inHeap
  data := by simpa using cell.data

theorem Edited.walk (edited : Edited home v v') (layout : Layout size home v.setup) (walk : v.Walk home cs) :
    v'.Walk home cs where
  linked := walk.linked.of_same fun c member =>
    next_of_fatEntry (edited.fatEntry layout (walk.inHeap c (List.dropLast_subset _ member)))
  distinct := walk.distinct
  inHeap c member := by
    rw [InHeap, endCluster, edited.setup]
    exact walk.inHeap c member
  data c member := by
    simp only [IsData, dataSector, edited.details]
    exact walk.data c member

theorem DirCluster.edited (edited : Edited home v v') (dir : v.DirCluster home c) : v'.DirCluster home c := by
  have dir₀ : (v.atClock v'.setup.clock).DirCluster home c :=
    ⟨dir.room, dir.layout.of_same rfl rfl rfl rfl, dir.inHeap, dir.data, dir.past⟩
  exact dir₀.of_setup edited.setup

theorem dirEntries_entryAt {m : Nat} {e : DirSlot} (some_ : 0 < v.clusterSlots)
    (here : (v.dirEntries cs)[m]? = some e) :
    ∃ c ∈ cs, e = v.dirSlot c (m % v.clusterSlots) ∧ cs[m / v.clusterSlots]? = some c := by
  rw [dirEntries_get some_] at here
  obtain ⟨c, cluster, rfl⟩ := Option.map_eq_some_iff.mp here
  exact ⟨c, List.mem_of_getElem? cluster, rfl, cluster⟩

/-- Every entry of a directory has a place of its own. -/
theorem Walk.place_inj (room : rawEntryLen ≤ size) (layout : Layout size home v.setup) (walk : v.Walk home cs)
    {m j : Nat} {e e' : DirSlot} (one : (v.dirEntries cs)[m]? = some e) (two : (v.dirEntries cs)[j]? = some e')
    (same : e.2 = e'.2) :
    m = j := by
  have some_ := clusterSlots_pos room layout
  have per : 0 < dirEntriesPerBlock size := Nat.div_pos room (by decide)
  obtain ⟨c, member, rfl, cluster⟩ := dirEntries_entryAt some_ one
  obtain ⟨d, member', rfl, cluster'⟩ := dirEntries_entryAt some_ two
  have insideM : m % v.clusterSlots / dirEntriesPerBlock size < v.setup.details.sectorsPerCluster :=
    (Nat.div_lt_iff_lt_mul per).mpr (Nat.mod_lt m some_)
  have insideJ : j % v.clusterSlots / dirEntriesPerBlock size < v.setup.details.sectorsPerCluster :=
    (Nat.div_lt_iff_lt_mul per).mpr (Nat.mod_lt j some_)
  obtain ⟨sector, offset⟩ := Location.mk.inj same
  obtain ⟨rfl, quotient⟩ := dataSector_inj (walk.inHeap c member).1 (walk.inHeap d member').1 insideM insideJ sector
  have number : m / v.clusterSlots = j / v.clusterSlots := by
    obtain ⟨index, here⟩ := List.getElem?_eq_some_iff.mp cluster
    obtain ⟨index', here'⟩ := List.getElem?_eq_some_iff.mp cluster'
    exact (walk.distinct.getElem_inj_iff).mp (here.trans here'.symm)
  have rest : m % v.clusterSlots = j % v.clusterSlots := by
    rw [← Nat.div_add_mod (m % v.clusterSlots) (dirEntriesPerBlock size), quotient, offset, Nat.div_add_mod]
  rw [← Nat.div_add_mod m v.clusterSlots, number, rest, Nat.div_add_mod]

/-- Volumes with the same numbers have the entries of a directory in the same places. -/
theorem dirEntries_of_details (details : v'.setup.details = v.setup.details) (cs : List Nat) :
    v'.dirEntries cs = (v.dirEntries cs).map fun e => (v'.entryAt e.2, e.2) := by
  have cluster : ∀ c, v'.dirSlots c = (v.dirSlots c).map fun e => (v'.entryAt e.2, e.2) := by
    intro c
    rw [dirSlots, dirSlots, clusterSlots, clusterSlots, details, List.map_map]
    refine List.map_congr_left fun k _ => ?_
    rw [Function.comp_apply, dirSlot, dirSlot, slotLocation, slotLocation, dataSector, dataSector, details]
  induction cs with
  | nil => rfl
  | cons c cs ih => rw [dirEntries_cons, dirEntries_cons, List.map_append, cluster, ih]

theorem Edited.dirEntries (edited : Edited home v v') (cs : List Nat) :
    v'.dirEntries cs = (v.dirEntries cs).map fun e => (v'.entryAt e.2, e.2) := dirEntries_of_details edited.details cs

theorem tick_entryAt (v : Volume size) (place : Location) : v.tick.entryAt place = v.entryAt place := by
  rw [entryAt, entryAt, tick_sectors]

theorem entryAt_of_dirEntries {m : Nat} {e : DirSlot} (some_ : 0 < v.clusterSlots)
    (here : (v.dirEntries cs)[m]? = some e) :
    v.entryAt e.2 = e.1 := by
  obtain ⟨c, _, rfl, _⟩ := dirEntries_entryAt some_ here
  rfl

section Put

variable (room : rawEntryLen ≤ size) (layout : Layout size home v.setup) (walk : v.Walk home cs) {j : Nat}
  {old raw : RawDirEntry} {place : Location} (here : (v.dirEntries cs)[j]? = some (old, place))
  (same : ∀ p, v'.entryAt p = v.entryAt p)

include room layout walk here same

/-- Putting an entry of a directory leaves the others. -/
theorem Walk.entryAt_put {m : Nat} {e : DirSlot} (there : (v.dirEntries cs)[m]? = some e) (apart : m ≠ j) :
    (v'.putEntry place raw).entryAt e.2 = e.1 := by
  rw [entryAt_putEntry_ne, same, entryAt_of_dirEntries (clusterSlots_pos room layout) there]
  intro equal
  exact apart (walk.place_inj room layout there here equal)

theorem Walk.dirEntries_put (edited : Edited home v v') (data : home place.sectorId = .data) {m : Nat}
    (apart : m ≠ j) :
    ((v'.putEntry place raw).dirEntries cs)[m]? = (v.dirEntries cs)[m]? := by
  rw [(edited.trans (putEntry_edited v' data raw)).dirEntries, List.getElem?_map]
  cases there : (v.dirEntries cs)[m]? with
  | none => rfl
  | some e => rw [Option.map_some, walk.entryAt_put room layout here same there apart]

end Put

end Volume

namespace Scan

open DirectoryEntryChain Volume

variable {size n : Nat} {home : Nat → CacheKind} {v v' : Volume size} {first i : Nat} {cs : List Nat}
  {s : Scan size n}

/-- The reader has come to the entry with number `i` of a directory, or to the end of the cluster before. -/
def AtSlot (v : Volume size) (cs : List Nat) (i : Nat) (chain : DirectoryEntryChain size) : Prop :=
  ∃ q c k, cs[q]? = some c ∧ i = q * v.clusterSlots + k ∧ k ≤ v.clusterSlots ∧ At v c k chain

/-- A reader that goes on from entry `i` of a directory, with a copy of its sector in which
earlier entries may be old. -/
structure Follows (home : Nat → CacheKind) (v : Volume size) (cs : List Nat) (i : Nat) (s : Scan size n) : Prop
    extends Shows home v s where
  place : ∃ chain, Alike chain s.chain ∧ AtSlot v cs i chain

section Next

variable (room : rawEntryLen ≤ size) (layout : Layout size home v.setup) (walk : v.Walk home cs)

include room layout walk

theorem next_slot (sound : s.fs.Sound home) (shown : s.fs.volume home = v) (place : AtSlot v cs i s.chain)
    (free : s.Free) {e : DirSlot}
    (here : (v.dirEntries cs)[i]? = some e) :
    ∃ s', next s = (.ok (some e), s') ∧ s'.Shows home v ∧ AtSlot v cs (i + 1) s'.chain := by
  have some_ := clusterSlots_pos room layout
  obtain ⟨q, c, k, cluster, rfl, most, at_⟩ := place
  have member := List.mem_of_getElem? cluster
  have stands : Stands home v c k s := ⟨⟨sound, shown⟩, at_⟩
  by_cases inside : k < v.clusterSlots
  · rw [dirEntries_at some_ cluster inside] at here
    cases here
    obtain ⟨s', run, stands', _⟩ :=
      stands.next_within room layout free (walk.inHeap c member) (walk.data c member) inside
    exact ⟨s', run, stands'.toShows, q, c, k + 1, cluster, by omega, inside, stands'.place⟩
  · have full : k = v.clusterSlots := by omega
    subst full
    rw [← Nat.succ_mul] at here ⊢
    rw [dirEntries_get some_, Nat.mul_div_cancel _ some_, Nat.mul_mod_left] at here
    cases later : cs[q + 1]? with
    | none =>
      rw [later] at here
      cases here
    | some d =>
      rw [later] at here
      cases here
      have member' := List.mem_of_getElem? later
      obtain ⟨index, here⟩ := List.getElem?_eq_some_iff.mp cluster
      obtain ⟨index', here'⟩ := List.getElem?_eq_some_iff.mp later
      have follow := List.isChain_iff_getElem.mp walk.linked q index'
      rw [here, here'] at follow
      obtain ⟨s', run, stands', _⟩ :=
        stands.next_entered room layout free (walk.inHeap c member) follow (walk.inHeap d member')
        (walk.data d member')
      exact ⟨s', run, stands'.toShows, q + 1, d, 1, later, rfl, some_, stands'.place⟩

theorem Follows.next (follows : Follows home v cs i s) (free : s.Free) {e : DirSlot}
    (here : (v.dirEntries cs)[i]? = some e) :
    ∃ s', DirectoryEntryChain.next s = (.ok (some e), s') ∧ Follows home v cs (i + 1) s' ∧ s'.chain.cursor =
      s.chain.cursor + 1 ∧
      s'.chain.numEntries = s.chain.numEntries := by
  obtain ⟨chain, alike, place⟩ := follows.place
  have limit : s.chain.numEntries = chain.numEntries ∧ s.chain.cursor = chain.cursor := by
    rw [alike.same]
    exact ⟨rfl, rfl⟩
  have free' : Free (⟨s.fs, chain⟩ : Scan size n) := by
    rw [Free, limit.1, limit.2] at free
    exact free
  obtain ⟨t, run, shows, place'⟩ :=
    next_slot room layout walk (s := ⟨s.fs, chain⟩) follows.sound follows.volume place free' here
  obtain ⟨chain', run', alike'⟩ := next_alike alike run
  exact ⟨⟨t.fs, chain'⟩, run', ⟨⟨shows.sound, shows.volume⟩, t.chain, alike', place'⟩, next_counts run'⟩

end Next

/-- The reader does not notice a change of entries that it has delivered. -/
theorem Follows.changed (room : rawEntryLen ≤ size) (layout : Layout size home v.setup)
    (follows : Follows home v cs i s)
    (details : v'.setup.details = v.setup.details)
    (entries : ∀ m e, i ≤ m → (v.dirEntries cs)[m]? = some e → v'.entryAt e.2 = e.1)
    {fs' : FileSystem size n} (sound : fs'.Sound home) (shown : fs'.volume home = v') :
    Follows home v' cs i ⟨fs', s.chain⟩ := by
  have some_ := clusterSlots_pos room layout
  have slots : v'.clusterSlots = v.clusterSlots := by rw [clusterSlots, clusterSlots, details]
  obtain ⟨chain, alike, q, c, k, cluster, rfl, most, at_⟩ := follows.place
  refine ⟨⟨sound, shown⟩, ?_⟩
  rcases at_.place with due | ⟨pos, fetched, sector, offset, buf⟩
  · exact ⟨chain, alike, q, c, k, cluster, by rw [slots], by rw [slots]; exact most, at_.details.trans details.symm,
      at_.cluster, Or.inl due⟩
  · refine ⟨{ chain with buf := v'.sectors (v'.dataSector c ((k - 1) / dirEntriesPerBlock size)) },
      ⟨?_, fun _ j later small => ?_⟩,
      q, c, k, cluster, by rw [slots], by rw [slots]; exact most, at_.details.trans details.symm, at_.cluster,
      Or.inr ⟨pos, fetched, sector, offset, rfl⟩⟩
    · rw [alike.same]
    · have later : chain.dirEntryOffset ≤ j := later
      rw [offset] at later
      have per := (Nat.zero_le _).trans_lt small
      have whole := Nat.div_add_mod (k - 1) (dirEntriesPerBlock size)
      have number : (k - 1) / dirEntriesPerBlock size * dirEntriesPerBlock size + j < v.clusterSlots := by
        have below : (k - 1) / dirEntriesPerBlock size < v.setup.details.sectorsPerCluster :=
          (Nat.div_lt_iff_lt_mul per).mpr (by change k - 1 < v.clusterSlots; omega)
        have reach := Nat.mul_le_mul_right (dirEntriesPerBlock size) below
        rw [Nat.succ_mul] at reach
        change _ < v.setup.details.sectorsPerCluster * dirEntriesPerBlock size
        omega
      have place : v.slotLocation c ((k - 1) / dirEntriesPerBlock size * dirEntriesPerBlock size + j) =
          ⟨v.dataSector c ((k - 1) / dirEntriesPerBlock size), j⟩ := by
        rw [slotLocation, Nat.mul_comm, Nat.mul_add_div per, Nat.div_eq_of_lt small, Nat.add_zero, Nat.mul_add_mod,
          Nat.mod_eq_of_lt small]
      have same := entries _ _ (Nat.add_le_add_left (by rw [Nat.mul_comm]; omega) _)
        (dirEntries_at some_ cluster number)
      have sector' : v'.dataSector c ((k - 1) / dirEntriesPerBlock size) =
          v.dataSector c ((k - 1) / dirEntriesPerBlock size) := by
        rw [dataSector, dataSector, details]
      rw [dirSlot, place] at same
      rw [alike.entries fetched j (by rw [offset]; exact later) small, buf, sector']
      exact same.symm

/-- The reader goes on after the entry that it has just delivered was put again. -/
theorem Follows.put (room : rawEntryLen ≤ size) (layout : Layout size home v.setup) (walk : v.Walk home cs)
    (follows : Follows home v cs (i + 1) s) {old raw : RawDirEntry} {place : Location}
    (here : (v.dirEntries cs)[i]? = some (old, place))
    (edited : Edited home v v') (same : ∀ p, v'.entryAt p = v.entryAt p) {fs' : FileSystem size n}
    (sound : fs'.Sound home)
    (shown : fs'.volume home = v'.putEntry place raw) :
    Follows home (v'.putEntry place raw) cs (i + 1) ⟨fs', s.chain⟩ := by
  have details : (v'.putEntry place raw).setup.details = v.setup.details := edited.details
  refine follows.changed room layout details (fun m e later there => ?_) sound shown
  exact walk.entryAt_put room layout here same there (by omega)

end Scan

namespace Session

open Scan Volume

variable {size n : Nat} {home : Nat → CacheKind} {v : Volume size} {first i : Nat} {cs : List Nat}
  {s : Session size n}
  {chain : DirectoryEntryChain size}

section Entries

variable (room : rawEntryLen ≤ size) (layout : Layout size home v.setup) (walk : v.Walk home cs)

include room layout walk

theorem nextEntry_run (follows : Follows home v cs i ⟨s.fs, chain⟩) (free : Free (⟨s.fs, chain⟩ : Scan size n))
    {e : DirSlot}
    (here : (v.dirEntries cs)[i]? = some e) : ∃ s' chain', nextEntry chain s = (.ok (some e.1, chain'), s') ∧
      Follows home v cs (i + 1) ⟨s'.fs, chain'⟩ ∧ chain'.cursor = chain.cursor + 1 ∧ chain'.numEntries =
        chain.numEntries := by
  obtain ⟨t, run, follows', counted⟩ := follows.next room layout walk free here
  refine ⟨{ s with fs := t.fs }, t.chain, ?_, follows', counted⟩
  rw [nextEntry, run]
  rfl

end Entries

/-- A reader that has delivered as many entries as it may delivers no more. -/
theorem nextEntry_full (full : chain.numEntries = some chain.cursor) :
    nextEntry chain s = (.ok (none, chain), s) := by
  have run : DirectoryEntryChain.next (⟨s.fs, chain⟩ : Scan size n) = (.ok none, ⟨s.fs, chain⟩) := by
    rw [DirectoryEntryChain.next_eq, if_pos full]
  rw [nextEntry, run]
  rfl

/-- The place after another one on the device, where a writer goes on. -/
def nextPlace (size : Nat) (place : Location) : Location :=
  if place.dirEntryOffset + 1 = size / rawEntryLen then ⟨place.sectorId + 1, 0⟩
    else ⟨place.sectorId, place.dirEntryOffset + 1⟩

theorem iterate_nextPlace (room : rawEntryLen ≤ size) (v : Volume size) (c k : Nat) : ∀ j,
    (nextPlace size)^[j] (v.slotLocation c k) = v.slotLocation c (k + j) := by
  intro j
  induction j with
  | zero => rfl
  | succ j ih =>
    rw [Function.iterate_succ_apply', ih, ← Nat.add_assoc, slotLocation_succ room]
    rfl

theorem nextDirEntryLocation_place {σ : Type} {w : DirSetWriter}
    (small : (nextPlace size w.current).sectorId < 2 ^ 32) (t : σ) :
    (w.nextDirEntryLocation size : ExFat σ DirSetWriter) t =
      (.ok { w with current := nextPlace size w.current }, t) := by
  unfold DirSetWriter.nextDirEntryLocation
  unfold nextPlace at small ⊢
  split
  · rename_i full
    rw [if_pos full] at small
    rw [Exec.bind_of_ok (u32_of_lt small t)]
    rfl
  · rfl

theorem free_of_left {left : Nat} (limit : chain.numEntries = some (chain.cursor + (left + 1))) :
    Free (⟨s.fs, chain⟩ : Scan size n) := by
  rw [Free, limit]
  intro full
  have same : chain.cursor + (left + 1) = chain.cursor := Option.some.inj full
  omega

/-- The entries that are kept are read, and counted in the checksum, and nothing else. -/
theorem rewriteEntries_kept (room : rawEntryLen ≤ size) (layout : Layout size home v.setup) (walk : v.Walk home cs)
    {edit : Nat → RawDirEntry → ExFat (Session size n) Edit} {fileDir : Option RawDirEntry} (left : Nat) :
    ∀ {i counter rounds : Nat} {chain : DirectoryEntryChain size} {w : DirSetWriter} {s : Session size n},
      (∀ k, counter ≤ k → ∀ raw, edit k raw = pure .keep) → 0 < counter → left < rounds →
        i + left ≤ (v.dirEntries cs).length →
      chain.numEntries = some (chain.cursor + left) →
        (∀ j < left, ((nextPlace size)^[j + 1] w.current).sectorId < 2 ^ 32) →
      Follows home v cs i ⟨s.fs, chain⟩ → ∃ w', w'.start = w.start ∧
        w'.checksum =
          (((v.dirEntries cs).drop i).take left).foldl
          (fun sum e => DirSetWriter.calcChecksum sum e.1 false) w.checksum ∧
        Session.Leads home (rewriteEntries edit rounds counter chain w fileDir) s (.ok (w', fileDir)) v := by
  induction left with
  | zero =>
    intro i counter rounds chain w s _ _ enough _ limit _ follows
    obtain ⟨rounds, rfl⟩ : ∃ r, rounds = r + 1 := ⟨rounds - 1, by omega⟩
    refine ⟨w, rfl, by rw [List.take_zero]; rfl, s, ?_, follows.sound, follows.volume⟩
    rw [rewriteEntries, Exec.bind_of_ok (nextEntry_full limit)]
    rfl
  | succ left ih =>
    intro i counter rounds chain w s keeps pos enough more limit small follows
    obtain ⟨rounds, rfl⟩ : ∃ r, rounds = r + 1 := ⟨rounds - 1, by omega⟩
    have inside : i < (v.dirEntries cs).length := by omega
    have here := List.getElem?_eq_getElem inside
    obtain ⟨s₁, chain₁, run₁, follows₁, cursor₁, limit₁⟩ :=
      nextEntry_run room layout walk follows (free_of_left limit) here
    generalize (v.dirEntries cs)[i] = e at here run₁
    have run₂ := nextDirEntryLocation_place (w := w) (small 0 (Nat.succ_pos left)) s₁
    have advanced : (w.addNoWrite size e.1 false : ExFat (Session size n) DirSetWriter) s₁ =
        (.ok ⟨w.start, nextPlace size w.current, DirSetWriter.calcChecksum w.checksum e.1 false⟩, s₁) := by
      rw [DirSetWriter.addNoWrite, Exec.bind_of_ok run₂]
      rfl
    obtain ⟨w', start, checksum, s', run', sound', shown'⟩ := @ih (i + 1) (counter + 1) rounds chain₁
      ⟨w.start, nextPlace size w.current, DirSetWriter.calcChecksum w.checksum e.1 false⟩ s₁
      (fun k above => keeps k (by omega)) (by omega) (by omega) (by omega)
        (by rw [limit₁, limit, cursor₁]; congr 1; omega)
      (fun j below => small (j + 1) (Nat.succ_lt_succ below)) follows₁
    have rest : ((v.dirEntries cs).drop i).take (left + 1) = e :: ((v.dirEntries cs).drop (i + 1)).take left := by
      obtain ⟨index, same⟩ := List.getElem?_eq_some_iff.mp here
      rw [List.drop_eq_getElem_cons index, List.take_succ_cons, same]
    refine ⟨w', start, by rw [checksum, rest, List.foldl_cons], s', ?_, sound', shown'⟩
    have later : ¬ counter = 0 := by omega
    rw [rewriteEntries, Exec.bind_of_ok run₁]
    dsimp only
    rw [keeps counter le_rfl e.1]
    refine (Exec.bind_of_ok (Exec.pure_apply _ s₁)).trans ?_
    dsimp only
    simp only [later, decide_false]
    exact (Exec.bind_of_ok advanced).trans run'

/-- The file entry as `flush` leaves it, but for the checksum. -/
def flushedFile (now : EncodedTimestamp) (file : RawDirEntry) : RawDirEntry :=
  FileDirEntry.serialize { FileDirEntry.ofRaw file with
  lastModifiedTimestamp := now.packed
  lastModified10msIncrement := now.increment10ms
  lastModifiedUtcOffset := now.utcOffset
  lastAccessedTimestamp := now.packed
  lastAccessedUtcOffset := now.utcOffset }

/-- The stream extension as `flush` leaves it. -/
def flushedStream (details : FileDetails) (chain : StoredChain) (stream : RawDirEntry) : RawDirEntry :=
  StreamExtensionDirEntry.serialize { StreamExtensionDirEntry.ofRaw stream with
    firstCluster := File.firstClusterOf chain
    dataLength := details.dataLength
    validDataLength := details.validDataLength
    generalSecondaryFlags := details.flags }

/-- The loop from the stream extension on, and the checksum: the stream extension is put, the
other entries are kept, and the file entry is put again with the checksum of all of them. -/
theorem rewriteRest_leads (room : rawEntryLen ≤ size) (layout : Layout size home v.setup) (walk : v.Walk home cs)
    {edit : Nat → RawDirEntry → ExFat (Session size n) Edit} {c c' k k' left : Nat} (file : RawDirEntry)
    {stream stream' : RawDirEntry}
    (cell : v.DirCluster home c) (inside : k < v.clusterSlots) (cell' : v.DirCluster home c')
    (inside' : k' < v.clusterSlots)
    (isStream : (v.dirEntries cs)[i + 1]? = some (stream, v.slotLocation c' k'))
    (edits : edit 1 stream = pure (.put stream')) (keeps : ∀ k, 2 ≤ k → ∀ raw, edit k raw = pure .keep)
    (within : i + 2 + left ≤ (v.dirEntries cs).length)
    (small : ∀ j < left, ((nextPlace size)^[j + 1] (v.slotLocation c' (k' + 1))).sectorId < 2 ^ 32)
    (follows : Follows home v cs (i + 1) ⟨s.fs, chain⟩)
    (limit : chain.numEntries = some (chain.cursor + (left + 1))) :
    Session.Leads home (do
        let (writer, fileDir) ← rewriteEntries edit (left + 2) 1 chain
          ⟨v.slotLocation c k, v.slotLocation c' k', DirSetWriter.calcChecksum 0 file true⟩ (some file)
        match fileDir with
        | some fileDir => writer.finish fileDir
        | none => pure ()) s (.ok ())
      ((v.putEntry (v.slotLocation c' k') stream').putEntry (v.slotLocation c k) (file.patch 2 (leBytes 2
        (setChecksum (file :: stream' :: (((v.dirEntries cs).drop (i + 2)).take left).map Prod.fst))))) := by
  have home' := cell'.home_eq inside'
  -- the stream extension is read and put
  obtain ⟨s₁, chain₁, run₁, follows₁, cursor₁, limit₁⟩ :=
    nextEntry_run room layout walk follows (free_of_left limit) isStream
  have shown₁ : s₁.fs.volume home = v := follows₁.volume
  have put := DirSetWriter.add_leads (k := k') (c := c')
    (w := ⟨v.slotLocation c k, v.slotLocation c' k', DirSetWriter.calcChecksum 0 file true⟩)
    follows₁.sound (shown₁ ▸ cell'.stretch) inside' (by rw [shown₁]) stream' false
  rw [shown₁] at put
  obtain ⟨s₂, run₂, sound₂, shown₂⟩ := put
  have follows₂ := follows₁.put room layout walk isStream (.refl v) (fun _ => rfl) sound₂ shown₂
  have edited : Edited home v (v.putEntry (v.slotLocation c' k') stream') := putEntry_edited _ home' _
  -- the rest of the set is only read
  obtain ⟨w, start, checksum, s₃, run₃, sound₃, shown₃⟩ := @rewriteEntries_kept _ _ _ _ _ room (edited.layout layout)
    (edited.walk layout walk) edit (some file) left (i + 2) 2 (left + 1) chain₁
    ⟨v.slotLocation c k, v.slotLocation c' (k' + 1),
      DirSetWriter.calcChecksum (DirSetWriter.calcChecksum 0 file true) stream' false⟩ s₂
    (fun k above raw => keeps k above raw) (by omega) (Nat.lt_succ_self left)
    (by rw [length_dirEntries, edited.clusterSlots, ← length_dirEntries]; exact within)
    (by rw [limit₁, limit, cursor₁]; congr 1; omega) small follows₂
  have shown₃ : s₃.fs.volume home = v.putEntry (v.slotLocation c' k') stream' := shown₃
  have last := DirSetWriter.finish_leads (k := k) (c := c) (w := w) sound₃ (shown₃ ▸ (cell.edited edited).stretch)
    (by rw [shown₃, edited.clusterSlots]; exact inside) (by rw [shown₃, edited.slotLocation, start]) file
  rw [shown₃, edited.slotLocation] at last
  -- the entries that are kept are those of the directory before
  have kept : ((((v.putEntry (v.slotLocation c' k') stream').dirEntries cs).drop (i + 2)).take left).map Prod.fst =
      (((v.dirEntries cs).drop (i + 2)).take left).map Prod.fst := by
    congr 2
    refine List.ext_getElem? fun j => ?_
    rw [List.getElem?_drop, List.getElem?_drop]
    exact walk.dirEntries_put room layout isStream (fun _ => rfl) (.refl v) home' (by omega)
  have sum : w.checksum =
      setChecksum (file :: stream' :: (((v.dirEntries cs).drop (i + 2)).take left).map Prod.fst) := by
    rw [checksum, DirSetWriter.setChecksum_cons, List.foldl_cons, ← kept, List.foldl_map]
  rw [sum] at last
  obtain ⟨s₄, run₄, sound₄, shown₄⟩ := last
  refine ⟨s₄, ?_, sound₄, shown₄⟩
  have whole : rewriteEntries edit (left + 2) 1 chain
    ⟨v.slotLocation c k, v.slotLocation c' k', DirSetWriter.calcChecksum 0 file true⟩
      (some file) s = (.ok (w, some file), s₃) := by
    rw [rewriteEntries, Exec.bind_of_ok run₁]
    dsimp only
    rw [edits]
    exact (Exec.bind_of_ok (Exec.pure_apply _ s₁)).trans ((Exec.bind_of_ok run₂).trans run₃)
  rw [Exec.bind_of_ok whole]
  exact run₄

end Session

end ExFatSlim
