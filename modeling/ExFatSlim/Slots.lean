import ExFatSlim.Cursor
import ExFatSlim.Api

namespace ExFatSlim

open DirectoryEntryChain (dirEntriesPerBlock)

theorem succ_div_mod_full {q e : Nat} (full : q % e + 1 = e) : (q + 1) / e = q / e + 1 ∧ (q + 1) % e = 0 := by
  have whole := Nat.mod_add_div q e
  exact (Nat.div_mod_unique (by omega)).mpr ⟨by rw [Nat.mul_succ]; omega, by omega⟩

theorem succ_div_mod_inside {q e : Nat} (inside : q % e + 1 < e) :
    (q + 1) / e = q / e ∧ (q + 1) % e = q % e + 1 := by
  have whole := Nat.mod_add_div q e
  exact (Nat.div_mod_unique (by omega)).mpr ⟨by omega, inside⟩

/-- A directory entry and the place it was read from. -/
abbrev DirSlot := RawDirEntry × Location

namespace Volume

variable {size : Nat}

/-- How many entries a cluster has room for. -/
def clusterSlots (v : Volume size) : Nat := v.setup.details.sectorsPerCluster * dirEntriesPerBlock size

/-- The place of the entry with number `k` of a cluster. -/
def slotLocation (v : Volume size) (c k : Nat) : Location :=
  ⟨v.dataSector c (k / dirEntriesPerBlock size), k % dirEntriesPerBlock size⟩

/-- The entry at a place. -/
def entryAt (v : Volume size) (location : Location) : RawDirEntry :=
  (v.sectors location.sectorId).chunk rawEntryLen location.dirEntryOffset

def dirSlot (v : Volume size) (c k : Nat) : DirSlot := (v.entryAt (v.slotLocation c k), v.slotLocation c k)

/-- The entries of a cluster in order. -/
def dirSlots (v : Volume size) (c : Nat) : List DirSlot := (List.range v.clusterSlots).map (v.dirSlot c)

end Volume

/-- The run of `m` ends with `r` in a sound state that stands for the volume and the reader in `t`. -/
abbrev Scan.Leads {size n : Nat} {α : Type} (home : Nat → CacheKind) (m : ExFat (Scan size n) α)
    (s : Scan size n) (r : Except (Fault ExFatError) α) (t : Volume size × DirectoryEntryChain size) : Prop :=
  Exec.Leads (fun s => s.fs.Sound home) (fun s => (s.fs.volume home, s.chain)) m s r t

namespace DirectoryEntryChain

variable {size n : Nat} {home : Nat → CacheKind} {v : Volume size} {c k : Nat} {chain : DirectoryEntryChain size}

/-- The reader has come to the entry with number `k` of cluster `c`: it has
just been placed there, or it holds the sector of the entry before. -/
structure At (v : Volume size) (c k : Nat) (chain : DirectoryEntryChain size) : Prop where
  details : chain.fs = v.setup.details
  cluster : chain.clusterId = c
  place : (chain.fetchRequired = true ∧ chain.clusterOffset = k / dirEntriesPerBlock size ∧
      chain.dirEntryOffset = k % dirEntriesPerBlock size) ∨
    (0 < k ∧ chain.fetchRequired = false ∧ chain.clusterOffset = (k - 1) / dirEntriesPerBlock size ∧
      chain.dirEntryOffset = (k - 1) % dirEntriesPerBlock size + 1 ∧
      chain.buf = v.sectors (v.dataSector c ((k - 1) / dirEntriesPerBlock size)))

/-- The reader after `turnPage`: the sector of its entry is the current one. -/
structure Ready (v : Volume size) (c k : Nat) (chain : DirectoryEntryChain size) : Prop where
  details : chain.fs = v.setup.details
  cluster : chain.clusterId = c
  sector : chain.clusterOffset = k / dirEntriesPerBlock size
  entry : chain.dirEntryOffset = k % dirEntriesPerBlock size
  fetched : chain.fetchRequired = false → chain.buf = v.sectors (v.dataSector c (k / dirEntriesPerBlock size))

theorem new_at (c : Nat) : At v c 0 (DirectoryEntryChain.new c v.setup.details) where
  details := rfl
  cluster := rfl
  place := Or.inl ⟨rfl, by simp [new], by simp [new]⟩

/-- The reader with its place moved on to the next sector at the end of one. -/
def turned (chain : DirectoryEntryChain size) : DirectoryEntryChain size :=
  if dirEntriesPerBlock size ≤ chain.dirEntryOffset then
    { chain with clusterOffset := chain.clusterOffset + 1, dirEntryOffset := 0, fetchRequired := true }
  else chain

theorem turned_cursor : chain.turned.cursor = chain.cursor ∧ chain.turned.numEntries = chain.numEntries := by
  unfold turned
  split <;> exact ⟨rfl, rfl⟩

/-- The second half of `turnPage`: the next cluster at the end of one. -/
def enterCluster : ExFat (Scan size n) Bool := do
  let chain := (← get).chain
  if chain.fs.sectorsPerCluster ≤ chain.clusterOffset then
    match ← onFs (Fat.nextClusterInFatChain chain.clusterId) with
    | some clusterId =>
      modifyChain fun c => { c with
        clusterId, clusterOffset := 0, dirEntryOffset := 0, fetchRequired := true }
      pure true
    | none => pure false
  else pure true

theorem turnPage_eq (s : Scan size n) : turnPage s = enterCluster { s with chain := s.chain.turned } := by
  unfold turnPage turned
  rw [Exec.bind_of_ok (Exec.get_apply s)]
  by_cases past : dirEntriesPerBlock size ≤ s.chain.dirEntryOffset
  · rw [if_pos past, if_pos past]
    rfl
  · rw [if_neg past, if_neg past]
    rfl

theorem At.turned (room : rawEntryLen ≤ size) (here : At v c k chain) : Ready v c k chain.turned := by
  have some_ : 0 < dirEntriesPerBlock size := Nat.div_pos room (by decide)
  have entry := Nat.mod_lt k some_
  unfold DirectoryEntryChain.turned
  rcases here.place with ⟨fetch, sector, offset⟩ | ⟨pos, fetch, sector, offset, buf⟩
  · rw [if_neg (by omega)]
    exact ⟨here.details, here.cluster, sector, offset, by simp [fetch]⟩
  · -- `k` is the entry after `k - 1`: the next one of its sector, or the first of the next sector
    obtain ⟨q, rfl⟩ : ∃ q, k = q + 1 := ⟨k - 1, by omega⟩
    rw [Nat.add_sub_cancel] at sector offset buf
    have before := Nat.mod_lt q some_
    by_cases full : q % dirEntriesPerBlock size + 1 = dirEntriesPerBlock size
    · have next := succ_div_mod_full full
      rw [if_pos (by omega)]
      exact ⟨here.details, here.cluster, by simp only [sector, next.1], by simp only [next.2], by simp⟩
    · have next := succ_div_mod_inside (q := q) (e := dirEntriesPerBlock size) (by omega)
      rw [if_neg (by omega)]
      exact ⟨here.details, here.cluster, by rw [sector, next.1], by rw [offset, next.2], fun _ => by rw [buf, next.1]⟩

/-- Within a cluster the page is turned at the end of a sector. -/
theorem turnPage_within (room : rawEntryLen ≤ size) (here : At v c k chain) (inside : k < v.clusterSlots)
    (fs : FileSystem size n) :
    turnPage ⟨fs, chain⟩ = (.ok true, ⟨fs, chain.turned⟩) ∧ Ready v c k chain.turned := by
  have ready := here.turned room
  have sector : k / dirEntriesPerBlock size < v.setup.details.sectorsPerCluster :=
    (Nat.div_lt_iff_lt_mul (Nat.div_pos room (by decide))).mpr inside
  refine ⟨?_, ready⟩
  rw [turnPage_eq, enterCluster, Exec.bind_of_ok (Exec.get_apply _)]
  dsimp only
  rw [if_neg (by rw [ready.details, ready.sector]; omega)]
  rfl

/-- The reader at the first entry of a cluster that the FAT has named. -/
def entered (chain : DirectoryEntryChain size) (c : Nat) : DirectoryEntryChain size :=
  { chain with clusterId := c, clusterOffset := 0, dirEntryOffset := 0, fetchRequired := true }

theorem entered_at (here : chain.fs = v.setup.details) (d : Nat) : At v d 0 (chain.entered d) where
  details := here
  cluster := rfl
  place := Or.inl ⟨rfl, by simp [entered], by simp [entered]⟩

theorem enterCluster_end (room : rawEntryLen ≤ size) (here : At v c v.clusterSlots chain) (fs : FileSystem size n) :
    turnPage ⟨fs, chain⟩ = (onFs (Fat.nextClusterInFatChain c) >>= fun
      | some clusterId => do
        modifyChain fun chain => chain.entered clusterId
        pure true
      | none => pure false : ExFat (Scan size n) Bool) ⟨fs, chain.turned⟩ := by
  have ready := here.turned room
  have sector : v.clusterSlots / dirEntriesPerBlock size = v.setup.details.sectorsPerCluster :=
    Nat.mul_div_cancel _ (Nat.div_pos room (by decide))
  rw [turnPage_eq, enterCluster, Exec.bind_of_ok (Exec.get_apply _)]
  dsimp only
  rw [if_pos (by rw [ready.details, ready.sector, sector]), ready.cluster]
  rfl

/-- At the end of a cluster the reader goes where the FAT leads. -/
theorem turnPage_follow (room : rawEntryLen ≤ size) (here : At v c v.clusterSlots chain) {fs fs' : FileSystem size n}
    {d : Option Nat}
    (follow : Fat.nextClusterInFatChain c fs = (.ok d, fs')) :
    turnPage ⟨fs, chain⟩ = (.ok d.isSome, ⟨fs', d.elim chain.turned chain.turned.entered⟩) := by
  have step : (onFs (Fat.nextClusterInFatChain c) : ExFat (Scan size n) _) ⟨fs, chain.turned⟩ =
    (.ok d, ⟨fs', chain.turned⟩) :=
    Exec.zoom_of_run follow
  rw [enterCluster_end room here, Exec.bind_of_ok step]
  cases d <;> rfl

/-- At the end of a cluster the FAT decides where to go on. -/
theorem turnPage_end (room : rawEntryLen ≤ size) {fs : FileSystem size n} (sound : fs.Sound home)
    (layout : Layout size home v.setup) (shown : fs.volume home = v) (inHeap : v.InHeap c)
    (here : At v c v.clusterSlots chain) :
    Scan.Leads home turnPage ⟨fs, chain⟩ (.ok (v.next c).isSome) (v, match v.next c with
      | some d => chain.turned.entered d
      | none => chain.turned) := by
  subst shown
  obtain ⟨fs', run, sound', shown'⟩ := Fat.nextClusterInFatChain_leads sound layout inHeap
  refine .of_run (turnPage_follow room here run) sound' (Prod.ext shown' ?_)
  cases (fs.volume home).next c <;> rfl

/-- Reads the current sector. -/
def fetch : ExFat (Scan size n) Unit := do
  let sectorId ← getCurrentSectorId
  let b ← onFs (FileSystem.onCache .data (SlotCache.read sectorId))
  modifyChain fun c => { c with buf := b, fetchRequired := false }

/-- Takes the current entry from the sector that is in the buffer. -/
def handOver : ExFat (Scan size n) (Option DirSlot) := do
  let chain := (← get).chain
  Exec.assert (chain.dirEntryOffset < dirEntriesPerBlock size)
  let sectorId ← getCurrentSectorId
  modifyChain fun c => { c with dirEntryOffset := c.dirEntryOffset + 1, cursor := c.cursor + 1 }
  pure (some (chain.buf.chunk rawEntryLen chain.dirEntryOffset, ⟨sectorId, chain.dirEntryOffset⟩))

/-- The rest of `next`: the entry at the current place. -/
def deliver : ExFat (Scan size n) (Option DirSlot) := do
  if (← get).chain.fetchRequired then fetch
  handOver

/-- `next` turns the page and delivers what is there, up to the limit. -/
theorem next_eq (s : Scan size n) : next s =
    if s.chain.numEntries = some s.chain.cursor then (.ok none, s)
    else (turnPage >>= fun more => if more then deliver else pure none) s := by
  unfold next
  rw [Exec.bind_of_ok (Exec.get_apply s)]
  split
  · rfl
  · rw [Exec.bind_apply, Exec.bind_apply]
    rcases turnPage s with ⟨_ | more, s'⟩
    · rfl
    · cases more with
      | false => rfl
      | true =>
        change (get >>= _ : ExFat (Scan size n) _) s' = (get >>= _ : ExFat (Scan size n) _) s'
        rw [Exec.bind_of_ok (Exec.get_apply s'), Exec.bind_of_ok (Exec.get_apply s')]
        split
        · simp only [fetch, Exec.bind_assoc]
          rfl
        · rfl

/-- The reader that has just delivered the entry with number `k`. -/
def delivered (v : Volume size) (c k : Nat) (chain : DirectoryEntryChain size) : DirectoryEntryChain size :=
  { chain with
    buf := v.sectors (v.dataSector c (k / dirEntriesPerBlock size))
    fetchRequired := false
    dirEntryOffset := chain.dirEntryOffset + 1
    cursor := chain.cursor + 1 }

theorem Ready.delivered (ready : Ready v c k chain) : At v c (k + 1) (chain.delivered v c k) where
  details := ready.details
  cluster := ready.cluster
  place := Or.inr ⟨by omega, rfl, ready.sector, congrArg (· + 1) ready.entry, rfl⟩

/-- The number of the current sector, if it has 32 bits. -/
theorem Ready.currentSector (ready : Ready v c k chain) (low : 2 ≤ c) (fs : FileSystem size n) :
    getCurrentSectorId ⟨fs, chain⟩ = (if v.dataSector c (k / dirEntriesPerBlock size) < 2 ^ 32 then
      .ok (v.dataSector c (k / dirEntriesPerBlock size)) else .error .panic, ⟨fs, chain⟩) := by
  have place : v.dataSector c 0 + chain.clusterOffset = v.dataSector c (k / dirEntriesPerBlock size) := by
    rw [ready.sector]
    rfl
  have start : (chain.fs.getHeapSectorId chain.clusterId : ExFat (Scan size n) Nat) = u32 (v.dataSector c 0) := by
    rw [ready.details, ready.cluster, FileSystemDetails.getHeapSectorId, if_neg (by omega)]
    rfl
  rw [getCurrentSectorId, Exec.bind_of_ok (Exec.get_apply _)]
  dsimp only
  rw [start, ← place]
  by_cases bound : v.dataSector c 0 + chain.clusterOffset < 2 ^ 32
  · rw [if_pos bound, Exec.bind_of_ok (u32_of_lt (by omega) _)]
    exact u32_of_lt bound _
  · rw [if_neg bound]
    by_cases first : v.dataSector c 0 < 2 ^ 32
    · rw [Exec.bind_of_ok (u32_of_lt first _), u32, if_neg bound]
      rfl
    · rw [u32, if_neg first]
      rfl

theorem Ready.currentSector_of_lt (ready : Ready v c k chain) (low : 2 ≤ c)
    (bound : v.dataSector c (k / dirEntriesPerBlock size) < 2 ^ 32)
    (fs : FileSystem size n) : getCurrentSectorId ⟨fs, chain⟩ = (.ok (v.slotLocation c k).sectorId, ⟨fs, chain⟩) := by
  rw [ready.currentSector low, if_pos bound]
  rfl

theorem Ready.handOver (ready : Ready v c k chain) (room : rawEntryLen ≤ size) (low : 2 ≤ c)
    (bound : v.dataSector c (k / dirEntriesPerBlock size) < 2 ^ 32) (fetched : chain.fetchRequired = false)
    (fs : FileSystem size n) :
    handOver ⟨fs, chain⟩ = (.ok (some (v.dirSlot c k)), ⟨fs, chain.delivered v c k⟩) := by
  have some_ : 0 < dirEntriesPerBlock size := Nat.div_pos room (by decide)
  have buf := ready.fetched fetched
  have entry : (chain.buf.chunk rawEntryLen chain.dirEntryOffset,
      (⟨(v.slotLocation c k).sectorId, chain.dirEntryOffset⟩ : Location)) = v.dirSlot c k := by
    rw [buf, ready.entry]
    rfl
  have moved : ({ chain with dirEntryOffset := chain.dirEntryOffset + 1, cursor := chain.cursor + 1 } :
      DirectoryEntryChain size) = chain.delivered v c k := by
    rw [DirectoryEntryChain.delivered, ← buf, ← fetched]
  rw [DirectoryEntryChain.handOver, Exec.bind_of_ok (Exec.get_apply _)]
  dsimp only
  rw [Exec.bind_of_ok (Exec.assert_of (by rw [ready.entry]; exact Nat.mod_lt k some_) _),
    Exec.bind_of_ok (ready.currentSector_of_lt low bound fs), ← entry, ← moved]
  rfl

theorem Ready.deliver (ready : Ready v c k chain) (room : rawEntryLen ≤ size) (low : 2 ≤ c)
    (bound : v.dataSector c (k / dirEntriesPerBlock size) < 2 ^ 32) {fs fs' : FileSystem size n}
    (read : FileSystem.onCache .data (SlotCache.read (v.slotLocation c k).sectorId) fs =
      (.ok (v.sectors (v.slotLocation c k).sectorId), fs')) :
    deliver ⟨fs, chain⟩ =
      (.ok (some (v.dirSlot c k)), ⟨if chain.fetchRequired then fs' else fs, chain.delivered v c k⟩) := by
  rw [DirectoryEntryChain.deliver, Exec.bind_of_ok (Exec.get_apply _)]
  dsimp only
  by_cases required : chain.fetchRequired = true
  · rw [if_pos required, if_pos required]
    have step : fetch ⟨fs, chain⟩ =
        (.ok (), ⟨fs', { chain with buf := v.sectors (v.slotLocation c k).sectorId, fetchRequired := false }⟩) := by
      have read' : (onFs (FileSystem.onCache .data (SlotCache.read (v.slotLocation c k).sectorId)) :
          ExFat (Scan size n) _) ⟨fs, chain⟩ = (.ok (v.sectors (v.slotLocation c k).sectorId), ⟨fs', chain⟩) :=
            Exec.zoom_of_run read
      rw [fetch, Exec.bind_of_ok (ready.currentSector_of_lt low bound fs), Exec.bind_of_ok read']
      rfl
    have ready' : Ready v c k { chain with buf := v.sectors (v.slotLocation c k).sectorId, fetchRequired := false } :=
      ⟨ready.details, ready.cluster, ready.sector, ready.entry, fun _ => rfl⟩
    rw [Exec.bind_of_ok step]
    exact ready'.handOver room low bound rfl fs'
  · rw [if_neg required, if_neg required]
    exact ready.handOver room low bound (by simpa using required) fs

theorem deliver_leads (room : rawEntryLen ≤ size) {fs : FileSystem size n} (sound : fs.Sound home)
    (layout : Layout size home v.setup) (shown : fs.volume home = v) (inHeap : v.InHeap c)
    (data : v.IsData home c) (ready : Ready v c k chain) (inside : k < v.clusterSlots) :
    Scan.Leads home deliver ⟨fs, chain⟩ (.ok (some (v.dirSlot c k))) (v, chain.delivered v c k) := by
  have sector : k / dirEntriesPerBlock size < v.setup.details.sectorsPerCluster :=
    (Nat.div_lt_iff_lt_mul (Nat.div_pos room (by decide))).mpr inside
  obtain ⟨b, fs', run, content, served, _⟩ := FileSystem.onCache_read sound .data (v.slotLocation c k).sectorId
  have content : b = v.sectors (v.slotLocation c k).sectorId := by
    rw [content (data _ sector), ← shown]
    rfl
  subst content
  refine ⟨_, ready.deliver room inHeap.1 (v.dataSector_lt layout inHeap sector) run, ?_, Prod.ext ?_ rfl⟩
  · dsimp only
    split
    · exact served.sound
    · exact sound
  · dsimp only
    split
    · exact served.volume.trans shown
    · exact shown

end DirectoryEntryChain

namespace Scan

open DirectoryEntryChain

variable {size n : Nat} {home : Nat → CacheKind} {v : Volume size} {c k : Nat} {s : Scan size n}

/-- The reader's file system stands for the volume. -/
structure Shows (home : Nat → CacheKind) (v : Volume size) (s : Scan size n) : Prop where
  sound : s.fs.Sound home
  volume : s.fs.volume home = v

/-- The reader has come to an entry of the volume. -/
structure Stands (home : Nat → CacheKind) (v : Volume size) (c k : Nat) (s : Scan size n) : Prop
    extends Shows home v s where
  place : At v c k s.chain

/-- A reader without a limit, or with one that it has not come to. -/
def Free (s : Scan size n) : Prop := s.chain.numEntries ≠ some s.chain.cursor

section Next

variable (room : rawEntryLen ≤ size) (layout : Layout size home v.setup)

include room layout

/-- Within a cluster the reader delivers entry after entry. -/
theorem Stands.next_within (stands : Stands home v c k s) (free : s.Free) (inHeap : v.InHeap c)
    (data : v.IsData home c) (inside : k < v.clusterSlots) :
    ∃ s', next s = (.ok (some (v.dirSlot c k)), s') ∧ Stands home v c (k + 1) s' ∧
      s'.chain.cursor = s.chain.cursor + 1 ∧ s'.chain.numEntries = s.chain.numEntries := by
  obtain ⟨turn, ready⟩ := turnPage_within room stands.place inside s.fs
  obtain ⟨s', run, sound, shown⟩ := deliver_leads room stands.sound layout stands.volume inHeap data ready inside
  obtain ⟨volume, chain⟩ := Prod.mk.inj shown
  refine ⟨s', ?_, ⟨⟨sound, volume⟩, chain ▸ ready.delivered⟩, ?_, ?_⟩
  · rw [next_eq, if_neg free, Exec.bind_of_ok turn]
    exact run
  · rw [chain, delivered, turned_cursor.1]
  · rw [chain]
    exact turned_cursor.2

/-- At the end of a cluster it goes on to the one that the FAT names. -/
theorem Stands.next_entered (stands : Stands home v c v.clusterSlots s) (free : s.Free) (inHeap : v.InHeap c)
    {d : Nat} (follow : v.next c = some d) (inHeap' : v.InHeap d) (data : v.IsData home d) :
    ∃ s', next s = (.ok (some (v.dirSlot d 0)), s') ∧ Stands home v d 1 s' ∧
      s'.chain.numEntries = s.chain.numEntries := by
  have some_ : 0 < v.clusterSlots := Nat.mul_pos layout.sectorsPerCluster (Nat.div_pos room (by decide))
  obtain ⟨s₁, turn, sound₁, shown₁⟩ := turnPage_end room stands.sound layout stands.volume inHeap stands.place
  rw [follow] at turn shown₁
  obtain ⟨volume₁, chain₁⟩ := Prod.mk.inj shown₁
  have entered : At v d 0 s₁.chain := by
    rw [chain₁]
    exact entered_at (stands.place.turned room).details d
  have ready : Ready v d 0 s₁.chain := by
    obtain ⟨details, cluster, ⟨fetch, sector, entry⟩ | ⟨pos, _⟩⟩ := entered
    · exact ⟨details, cluster, sector, entry, by simp [fetch]⟩
    · exact absurd pos (by omega)
  obtain ⟨s', run, sound, shown⟩ := deliver_leads room sound₁ layout volume₁ inHeap' data ready some_
  obtain ⟨volume, chain⟩ := Prod.mk.inj shown
  refine ⟨s', ?_, ⟨⟨sound, volume⟩, chain ▸ ready.delivered⟩, ?_⟩
  · rw [next_eq, if_neg free, Exec.bind_of_ok turn]
    exact run
  · rw [chain, delivered]
    simp only [chain₁]
    exact turned_cursor.2

/-- And it stops where the FAT names none. -/
theorem Stands.next_stops (stands : Stands home v c v.clusterSlots s) (free : s.Free) (inHeap : v.InHeap c)
    (follow : v.next c = none) : ∃ s', next s = (.ok none, s') ∧ Shows home v s' := by
  obtain ⟨s', turn, sound, shown⟩ := turnPage_end room stands.sound layout stands.volume inHeap stands.place
  rw [follow] at turn
  refine ⟨s', ?_, sound, (Prod.mk.inj shown).1⟩
  rw [next_eq, if_neg free, Exec.bind_of_ok turn]
  rfl

end Next

/-- What the calls of `next` return, one after the other, up to the first entry
at which the caller stops. -/
inductive Visits (home : Nat → CacheKind) (v : Volume size) (stop : RawDirEntry → Bool) :
    List DirSlot → Scan size n → Prop
  | ended {s s' : Scan size n} : s.Shows home v → next s = (.ok none, s') → s'.Shows home v → Visits home v stop [] s
  | stopped {s s' : Scan size n} {e : DirSlot} {es : List DirSlot} : s.Shows home v →
      next s = (.ok (some e), s') → s'.Shows home v → stop e.1 = true → Visits home v stop (e :: es) s
  | visited {s s' : Scan size n} {e : DirSlot} {es : List DirSlot} : s.Shows home v →
      next s = (.ok (some e), s') → stop e.1 = false → Visits home v stop es s' → Visits home v stop (e :: es) s

theorem Visits.shows {stop : RawDirEntry → Bool} {es : List DirSlot} (visits : Visits home v stop es s) :
    s.Shows home v := by
  cases visits <;> assumption

end Scan

end ExFatSlim
