import ExFatSlim.FatTable

namespace ExFatSlim

/-- The calls that a cached FAT answers. -/
inductive FatOp where
  | set (clusterId clusterIdTo : Nat)
  | next (clusterId : Nat)
  | flushSector (sector : Nat)
  | flush
  deriving DecidableEq, Repr

namespace FatOp

variable {size n : Nat}

/-- One call. The answer is that of `next_cluster_in_fat_chain`. -/
def run : FatOp → ExFat (Session size n) (Option (Option Nat))
  | .set c entry => do Fat.set c entry; return none
  | .next c => do return some (← Session.onFs (Fat.nextClusterInFatChain c))
  | .flushSector s => do Session.onCache .fat (SlotCache.flushSector s); return none
  | .flush => do Session.onCache .fat SlotCache.flush; return none

def runAll : List FatOp → Session size n → List (Except (Fault ExFatError) (Option (Option Nat))) × Session size n
  | [], s => ([], s)
  | op :: rest, s => ((op.run s).1 :: (runAll rest (op.run s).2).1, (runAll rest (op.run s).2).2)

/-- The cluster that a FAT entry names. -/
def linkOf (entry : Nat) : Option Nat :=
  if Fat.minClusterId ≤ entry ∧ entry ≤ Fat.clusterLen then some entry else none

/-- The same call on a map from clusters to entries. -/
def onMap : FatOp → (Nat → Nat) → Option (Option Nat) × (Nat → Nat)
  | .set c entry, m => (none, Function.update m c entry)
  | .next c, m => (some (linkOf (m c)), m)
  | .flushSector _, m => (none, m)
  | .flush, m => (none, m)

def onMapAll : List FatOp → (Nat → Nat) → List (Option (Option Nat)) × (Nat → Nat)
  | [], m => ([], m)
  | op :: rest, m => ((op.onMap m).1 :: (onMapAll rest (op.onMap m).2).1, (onMapAll rest (op.onMap m).2).2)

/-- The entry that the latest `set` of a cluster gave it. -/
def latest (c : Nat) : List FatOp → Option Nat
  | [] => none
  | .set d entry :: rest => (latest c rest).or (if d = c then some entry else none)
  | _ :: rest => latest c rest

theorem onMapAll_latest (c : Nat) (ops : List FatOp) : ∀ m : Nat → Nat,
    (onMapAll ops m).2 c = (latest c ops).getD (m c) := by
  induction ops with
  | nil => intro m; rfl
  | cons op rest ih =>
    intro m
    rw [onMapAll, ih]
    cases op with
    | set d entry =>
      cases later : latest c rest with
      | some newer => simp [latest, later]
      | none =>
        by_cases same : d = c
        · subst same
          simp [latest, later, onMap]
        · simp [latest, later, onMap, same, Function.update_of_ne (Ne.symm same)]
    | next | flushSector | flush => rfl

/-- What the callers see to: the cluster is an id, its sector a sector number
and an entry a word. -/
def Proper (size start : Nat) : FatOp → Prop
  | .set c entry => 2 ≤ c ∧ start + c / Fat.numEntries size < 2 ^ 32 ∧ entry < 2 ^ 32
  | .next c => 2 ≤ c ∧ start + c / Fat.numEntries size < 2 ^ 32
  | .flushSector _ => True
  | .flush => True

end FatOp

namespace Session

variable {size n : Nat}

/-- The entries of the FAT as seen through its cache. -/
def fatEntries (s : Session size n) (start : Nat) : Nat → Nat :=
  Fat.entryIn start (s.fs.fat.cache.view s.fs.dev)

/-- The FAT begins at `start`, and its cache is sound on a device that never fails. -/
structure FatReady (s : Session size n) (start : Nat) : Prop where
  start : s.fs.fat.startOfFatSector = some start
  sound : s.fs.fat.cache.Sound .univ s.fs.dev

/-- The session after an operation of the FAT's cache. -/
def withFat (s : Session size n) (c : SlotCache size n) (d : BlockDevice size) : Session size n :=
  { s with fs := s.fs.putCache .fat c d }

theorem onCache_fat {α : Type} {m : ExFat (CacheIo size n) α} {s : Session size n} {r : Except (Fault ExFatError) α}
    {c : SlotCache size n} {d : BlockDevice size} (run : m (s.fs.fat.cache, s.fs.dev) = (r, c, d)) :
    onCache .fat m s = (r, s.withFat c d) :=
  onCache_of_run (FileSystem.onCache_of_run (k := .fat) run)

theorem FatReady.withFat {s : Session size n} {start : Nat} (ready : s.FatReady start) {c : SlotCache size n}
    {d : BlockDevice size} (sound : c.Sound .univ d) : (s.withFat c d).FatReady start :=
  ⟨ready.start, sound⟩

theorem FatReady.getSectorId {s : Session size n} {start c : Nat} (ready : s.FatReady start)
    (small : start + c / Fat.numEntries size < 2 ^ 32) :
    Fat.getSectorId c s.fs = (.ok (start + c / Fat.numEntries size), s.fs) := by
  rw [Fat.getSectorId, Exec.bind_of_ok (Exec.get_apply s.fs), ready.start]
  exact u32_of_lt small s.fs

end Session

namespace Fat

variable {size n : Nat} {s : Session size n} {start : Nat}

theorem set_entries (some : 0 < numEntries size) (ready : s.FatReady start) {c entry : Nat}
    (proper : (FatOp.set c entry).Proper size start) :
    ∃ s', Fat.set c entry s = (.ok (), s') ∧ s'.FatReady start ∧
      s'.fatEntries start = Function.update (s.fatEntries start) c entry := by
  obtain ⟨low, small, word⟩ := proper
  let s₁ : Session size n := { s with touched := s.touched.insert ⟨.fat, start + c / numEntries size⟩ }
  obtain ⟨e, d, run, stored, _⟩ := SlotCache.readMut_spec ready.sound.coherent ready.sound.reliable
    (s := start + c / numEntries size) trivial
    (fun b => b.patch (c % numEntries size * entrySize) (leBytes entrySize entry))
  have sound := stored.sound ready.sound
  refine ⟨s₁.withFat e d, ?_, Session.FatReady.withFat (s := s₁) ⟨ready.start, ready.sound⟩ sound, ?_⟩
  · have recorded : Session.insert ⟨.fat, start + c / numEntries size⟩ s = (.ok (), s₁) := rfl
    rw [Fat.set, Exec.bind_of_ok (Exec.assert_of (show minClusterId ≤ c from low) s)]
    rw [Exec.bind_of_ok (Session.onFs_of_run (ready.getSectorId small))]
    rw [Exec.bind_of_ok recorded]
    exact Exec.bind_of_ok (Session.onCache_fat (s := s₁) run)
  · have view : e.view d = relink start (s.fs.fat.cache.view s.fs.dev) c entry :=
      funext fun t => stored.view t trivial
    funext x
    show entryIn start (e.view d) x = _
    rw [view]
    by_cases same : x = c
    · subst same
      rw [entryIn_relink_self some _ _ _ word, Function.update_self]
    · rw [entryIn_relink_ne _ _ same, Function.update_of_ne same]
      rfl

theorem nextClusterInFatChain_entries (ready : s.FatReady start) {c : Nat}
    (proper : (FatOp.next c).Proper size start) :
    ∃ s', Session.onFs (nextClusterInFatChain c) s = (.ok (FatOp.linkOf (s.fatEntries start c)), s') ∧
      s'.FatReady start ∧ s'.fatEntries start = s.fatEntries start := by
  obtain ⟨low, small⟩ := proper
  obtain ⟨k, filled⟩ := ready.sound.filled
  obtain ⟨b, e, d, run, shown, evolved, filled'⟩ := SlotCache.read_spec ready.sound.coherent ready.sound.reliable
    (start + c / numEntries size)
  have sound : (e.log (.look (start + c / numEntries size))).Sound .univ d :=
    ⟨evolved.coherent.log _, evolved.reliable ready.sound.reliable, filled' k filled⟩
  refine ⟨s.withFat (e.log _) d, ?_, ready.withFat sound, ?_⟩
  · have entry : b.le (c % numEntries size * entrySize) entrySize = s.fatEntries start c := by
      rw [shown trivial]
      rfl
    have read : FileSystem.onCache .fat (SlotCache.read (start + c / numEntries size)) s.fs =
        (.ok b, s.fs.putCache .fat (e.log (.look (start + c / numEntries size))) d) := FileSystem.onCache_of_run run
    have next : nextClusterInFatChain c s.fs = (.ok (FatOp.linkOf (s.fatEntries start c)),
        s.fs.putCache .fat (e.log (.look (start + c / numEntries size))) d) := by
      rw [nextClusterInFatChain, Exec.bind_of_ok (Exec.assert_of (show minClusterId ≤ c from low) s.fs)]
      rw [Exec.bind_of_ok (ready.getSectorId small), Exec.bind_of_ok read, entry, FatOp.linkOf]
      split <;> rfl
    exact Session.onFs_of_run next
  · have view : (e.log (.look (start + c / numEntries size))).view d = s.fs.fat.cache.view s.fs.dev :=
      funext fun t => evolved.view t trivial
    rw [Session.fatEntries, Session.fatEntries, ← view]
    rfl

end Fat

namespace FatOp

variable {size n : Nat} {s : Session size n} {start : Nat}

/-- A flush of the cache, of one sector or of all, shows in no entry. -/
theorem flush_entries (ready : s.FatReady start) {m : ExFat (CacheIo size n) Unit} (op : CacheOp size)
    (same : op.run = (do m; return none : ExFat (CacheIo size n) (Option (Block size))))
    (idle : ∀ a, op.onArray a = (none, a)) :
    ∃ s', Session.onCache .fat m s = (.ok (), s') ∧ s'.FatReady start ∧
      s'.fatEntries start = s.fatEntries start := by
  obtain ⟨e, d, run, sound, view, _⟩ := SlotCache.run_onArray ready.sound op
  rw [same, idle] at run
  obtain ⟨_, ⟨e', d'⟩, flushed, done⟩ := Exec.bind_eq_ok.mp run
  cases done
  refine ⟨s.withFat e d, Session.onCache_fat flushed, ready.withFat sound, ?_⟩
  rw [idle] at view
  exact congrArg (Fat.entryIn start) view

/-- One call of the cached FAT is the same call of the map. -/
theorem run_onMap (some : 0 < Fat.numEntries size) (ready : s.FatReady start) (op : FatOp)
    (proper : op.Proper size start) :
    ∃ s', op.run s = (.ok (op.onMap (s.fatEntries start)).1, s') ∧ s'.FatReady start ∧
      s'.fatEntries start = (op.onMap (s.fatEntries start)).2 := by
  cases op with
  | set c entry =>
    obtain ⟨s', run, ready', entries⟩ := Fat.set_entries some ready proper
    exact ⟨s', Exec.bind_of_ok run, ready', entries⟩
  | next c =>
    obtain ⟨s', run, ready', entries⟩ := Fat.nextClusterInFatChain_entries ready proper
    exact ⟨s', Exec.bind_of_ok run, ready', entries⟩
  | flushSector t =>
    obtain ⟨s', run, ready', entries⟩ := flush_entries ready (.flushSector t) rfl fun _ => rfl
    exact ⟨s', Exec.bind_of_ok run, ready', entries⟩
  | flush =>
    obtain ⟨s', run, ready', entries⟩ := flush_entries ready .flush rfl fun _ => rfl
    exact ⟨s', Exec.bind_of_ok run, ready', entries⟩

theorem runAll_onMapAll (some : 0 < Fat.numEntries size) (ops : List FatOp) : ∀ {s : Session size n},
    s.FatReady start → (∀ op ∈ ops, op.Proper size start) →
    ∃ s', runAll ops s = ((onMapAll ops (s.fatEntries start)).1.map .ok, s') ∧ s'.FatReady start ∧
      s'.fatEntries start = (onMapAll ops (s.fatEntries start)).2 := by
  induction ops with
  | nil => intro s ready _; exact ⟨s, rfl, ready, rfl⟩
  | cons op rest ih =>
    intro s ready proper
    obtain ⟨s', run, ready', entries⟩ := run_onMap some ready op (proper op (by simp))
    obtain ⟨s'', runRest, ready'', entries'⟩ := ih ready' fun later member => proper later (by simp [member])
    refine ⟨s'', ?_, ready'', ?_⟩
    · simp only [runAll, onMapAll, run, runRest, entries, List.map_cons]
    · rw [entries', entries]
      rfl

/-- The cached FAT is a map from clusters to links. Whatever calls are made of
it, over a device that never fails, they answer as a map does that begins as
the FAT on the device; the entry of a cluster is what the latest `set` of this
cluster has put there. -/
theorem fat_refines_map [NeZero n] (some : 0 < Fat.numEntries size) (s : Session size n) {start : Nat}
    (begins : s.fs.fat = ⟨Option.some start, .new⟩) (reliable : s.fs.dev.Reliable) (ops : List FatOp)
    (proper : ∀ op ∈ ops, op.Proper size start) :
    ∃ s', runAll ops s = ((onMapAll ops (Fat.entryIn start s.fs.dev.blocks)).1.map .ok, s') ∧
      s'.fatEntries start = (onMapAll ops (Fat.entryIn start s.fs.dev.blocks)).2 ∧
      ∀ c, s'.fatEntries start c = (latest c ops).getD (Fat.entryIn start s.fs.dev.blocks c) := by
  have ready : s.FatReady start := by
    refine ⟨by rw [begins], ?_⟩
    rw [begins]
    exact ⟨SlotCache.new_coherent .univ s.fs.dev, reliable, SlotCache.new_filledTo⟩
  have initial : s.fatEntries start = Fat.entryIn start s.fs.dev.blocks := by
    rw [Session.fatEntries, begins]
    exact congrArg (Fat.entryIn start) (funext fun t => SlotCache.new_view _ t)
  obtain ⟨s', run, _, entries⟩ := runAll_onMapAll some ops ready proper
  rw [initial] at run entries
  exact ⟨s', run, entries, fun c => by rw [entries, onMapAll_latest]⟩

/-- Two entries in a sector and one slot, in which three sectors take turns. -/
theorem fat_refines_map_one_slot :
    ∃ s', runAll [.set 2 3, .set 4 5, .set 3 Fat.endOfChain, .next 2, .flush, .next 4, .next 3, .next 6]
        (⟨{ (FileSystem.new ⟨fun _ _ => 0, [], []⟩ 64 : FileSystem 8 1) with fat := ⟨some 9, .new⟩ }, .new⟩) =
        ([.ok none, .ok none, .ok none, .ok (some (some 3)), .ok none, .ok (some (some 5)), .ok (some none),
          .ok (some none)], s') := by
  obtain ⟨s', run, _⟩ := fat_refines_map (by decide)
    (⟨{ (FileSystem.new ⟨fun _ _ => 0, [], []⟩ 64 : FileSystem 8 1) with fat := ⟨some 9, .new⟩ }, .new⟩)
    rfl rfl [.set 2 3, .set 4 5, .set 3 Fat.endOfChain, .next 2, .flush, .next 4, .next 3, .next 6]
    (by simp [Proper, Fat.numEntries, Fat.entrySize, Fat.endOfChain])
  exact ⟨s', run⟩

end FatOp

end ExFatSlim
