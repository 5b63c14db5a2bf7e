import ExFatSlim.Mounting
import ExFatSlim.ScanEnds

namespace ExFatSlim

open Exec (Pulls Drains Finishes IsResult)
open DirectoryEntryChain (next dirEntriesPerBlock turnPage enterCluster deliver At Ready)

/-- Whatever cache is in charge of a sector, it shows what the volume has there. -/
def FileSystem.Mirrors {size n : Nat} (v : Volume size) (fs : FileSystem size n) : Prop :=
  ∀ home, fs.Sound home ∧ fs.volume home = v

namespace FileSystem.Mirrors

variable {size n : Nat} {v : Volume size} {fs : FileSystem size n} {c : Nat}

theorem setup (mirrors : fs.Mirrors v) : fs.setup = v.setup :=
  congrArg Volume.setup (mirrors fun _ => .data).2

theorem read (mirrors : fs.Mirrors v) (k : CacheKind) (s : Nat) :
    ∃ fs', onCache k (SlotCache.read s) fs = (.ok (v.sectors s), fs') ∧ fs'.Mirrors v := by
  obtain ⟨b, fs', run, content, _⟩ := onCache_read (mirrors fun _ => k).1 k s
  have content : b = v.sectors s := by
    rw [content rfl, ← (mirrors fun _ => k).2]
    rfl
  subst content
  refine ⟨fs', run, fun home => ?_⟩
  obtain ⟨_, _, run', _, served, _⟩ := onCache_read (mirrors home).1 k s
  cases run.symm.trans run'
  exact ⟨served.sound, served.volume.trans (mirrors home).2⟩

/-- The link of a cluster, if its place in the FAT has a 32-bit sector number. -/
theorem nextCluster (mirrors : fs.Mirrors v) {start : Nat} (begins : v.setup.startOfFatSector = some start)
    (low : 2 ≤ c)
    (bound : v.fatSector c < 2 ^ 32) :
    ∃ fs', Fat.nextClusterInFatChain c fs = (.ok (v.next c), fs') ∧ fs'.Mirrors v := by
  obtain ⟨fs', run, mirrors'⟩ := mirrors.read .fat (v.fatSector c)
  have sector : Fat.getSectorId c fs = (.ok (v.fatSector c), fs) := by
    have same : fs.fat.startOfFatSector = some start := (congrArg Setup.startOfFatSector mirrors.setup).trans begins
    rw [Volume.fatSector, begins, Option.getD_some] at bound ⊢
    rw [Fat.getSectorId, Exec.bind_of_ok (Exec.get_apply fs), same]
    exact u32_of_lt bound fs
  refine ⟨fs', ?_, mirrors'⟩
  rw [Fat.nextClusterInFatChain, Exec.bind_of_ok (Exec.assert_of (show Fat.minClusterId ≤ c from low) fs),
    Exec.bind_of_ok sector,
    Exec.bind_of_ok run, Volume.next, Volume.fatEntry]
  split
  · rfl
  · rfl

theorem nextCluster_panics (mirrors : fs.Mirrors v) {start : Nat} (begins : v.setup.startOfFatSector = some start)
    (low : 2 ≤ c)
    (bound : ¬ v.fatSector c < 2 ^ 32) : Fat.nextClusterInFatChain c fs = (.error .panic, fs) := by
  have same : fs.fat.startOfFatSector = some start := (congrArg Setup.startOfFatSector mirrors.setup).trans begins
  rw [Volume.fatSector, begins, Option.getD_some] at bound
  rw [Fat.nextClusterInFatChain, Exec.bind_of_ok (Exec.assert_of (show Fat.minClusterId ≤ c from low) fs),
    Fat.getSectorId, Exec.bind_assoc,
    Exec.bind_of_ok (Exec.get_apply fs), same]
  dsimp only
  rw [u32, if_neg bound]
  rfl

/-- A reader whose caches are still empty. -/
theorem of_new [NeZero n] (reliable : fs.dev.Reliable) (fresh : ∀ k, fs.cacheOf k = .new) :
    fs.Mirrors ⟨fs.setup, fs.dev.blocks⟩ := by
  refine fun home => ⟨sound_of_new home reliable fresh, ?_⟩
  rw [volume, Volume.mk.injEq]
  refine ⟨rfl, funext fun s => ?_⟩
  rw [sector, fresh]
  exact SlotCache.new_view fs.dev s

end FileSystem.Mirrors

theorem walk_place {W j q : Nat} (inside : q < W) : (j * W + q) / W = j ∧ (j * W + q) % W = q :=
  (Nat.div_mod_unique (by omega)).mpr ⟨by rw [Nat.mul_comm W j]; omega, inside⟩

namespace Volume

variable {size : Nat}

/-- The clusters that the links of the FAT lead through, one after the other, as long as they go on. -/
def walk (v : Volume size) (c : Nat) : Nat → Option Nat
  | 0 => some c
  | j + 1 => (v.walk c j).bind v.next

/-- The entry with this number in the clusters of the walk. -/
def slotAt (v : Volume size) (c k : Nat) : Option DirSlot :=
  (v.walk c (k / v.clusterSlots)).map fun d => v.dirSlot d (k % v.clusterSlots)

/-- The sectors on the way from the entry before to this one have 32-bit numbers. -/
structure Addresses (v : Volume size) (c k : Nat) : Prop where
  link : ∀ j d, k = (j + 1) * v.clusterSlots → v.walk c j = some d → v.fatSector d < 2 ^ 32
  data : ∀ d, v.walk c (k / v.clusterSlots) = some d →
    v.dataSector d (k % v.clusterSlots / dirEntriesPerBlock size) < 2 ^ 32

/-- The walk begins with these entries. -/
def Begins (v : Volume size) (c : Nat) (es : List DirSlot) : Prop :=
  ∀ k < es.length, v.Addresses c k ∧ v.slotAt c k = es[k]?

/-- A scan of the walk has a reason to end: its first cluster is none, or it
comes to the end of the walk, or to entries that stop it. -/
def Halts (v : Volume size) (c : Nat) (stop : List DirSlot → Prop) : Prop :=
  c < 2 ∨ ∃ es, v.Begins c es ∧ (stop es ∨ (v.Addresses c es.length ∧ v.slotAt c es.length = none))

theorem walk_low {v : Volume size} {c d : Nat} (low : 2 ≤ c) (j : Nat) (here : v.walk c j = some d) : 2 ≤ d := by
  cases j with
  | zero => exact Option.some.inj here ▸ low
  | succ j =>
    obtain ⟨e, _, link⟩ := Option.bind_eq_some_iff.mp here
    rw [Volume.next] at link
    split at link
    · rename_i range
      exact Option.some.inj link ▸ range.1
    · cases link

section Places

variable {v : Volume size} {c d j : Nat} (here : v.walk c j = some d)

include here

theorem slotAt_within {q : Nat} (inside : q < v.clusterSlots) :
    v.slotAt c (j * v.clusterSlots + q) = some (v.dirSlot d q) := by
  rw [slotAt, (walk_place inside).1, (walk_place inside).2, here]
  rfl

/-- Behind an entry in the same cluster, and at the beginning of the walk, no link is followed. -/
theorem addresses_within {q : Nat} (inside : q < v.clusterSlots) (first : q = 0 → j = 0) :
    v.Addresses c (j * v.clusterSlots + q) ↔ v.dataSector d (q / dirEntriesPerBlock size) < 2 ^ 32 := by
  have place := walk_place (j := j) inside
  refine ⟨fun all => ?_, fun bound => ⟨fun i e same _ => ?_, fun e there => ?_⟩⟩
  · have bound := all.data d (by rw [place.1, here])
    rwa [place.2] at bound
  · have zero := congrArg (· % v.clusterSlots) same
    simp only [place.2, Nat.mul_mod_left] at zero
    rw [zero, first zero, Nat.zero_mul] at same
    exact absurd same (Nat.ne_of_lt (Nat.mul_pos (Nat.succ_pos i) (by omega)))
  · rw [place.1, here] at there
    rw [place.2, ← Option.some.inj there]
    exact bound

theorem walk_succ : v.walk c (j + 1) = v.next d := by
  rw [walk, here]
  rfl

variable (some_ : 0 < v.clusterSlots)

include some_

theorem slotAt_next : v.slotAt c (j * v.clusterSlots + v.clusterSlots) = (v.next d).map fun e => v.dirSlot e 0 := by
  rw [← Nat.succ_mul, slotAt, Nat.mul_div_cancel _ some_, Nat.mul_mod_left, Nat.succ_eq_add_one, walk_succ here]

/-- From the end of a cluster its link is followed. -/
theorem addresses_next : v.Addresses c (j * v.clusterSlots + v.clusterSlots) ↔
    v.fatSector d < 2 ^ 32 ∧ ∀ e, v.next d = some e → v.dataSector e 0 < 2 ^ 32 := by
  rw [← Nat.succ_mul]
  have cluster : (j + 1) * v.clusterSlots / v.clusterSlots = j + 1 := Nat.mul_div_cancel _ some_
  refine ⟨fun all => ⟨all.link j d rfl here, fun e there => ?_⟩, fun both =>
    ⟨fun i e same there => ?_, fun e there => ?_⟩⟩
  · have bound := all.data e (by rw [Nat.succ_eq_add_one, cluster, walk_succ here, there])
    rwa [Nat.mul_mod_left, Nat.zero_div] at bound
  · obtain rfl : j = i := Nat.succ.inj (Nat.eq_of_mul_eq_mul_right some_ same)
    cases here.symm.trans there
    exact both.1
  · rw [Nat.succ_eq_add_one, cluster, walk_succ here] at there
    rw [Nat.mul_mod_left, Nat.zero_div]
    exact both.2 e there

end Places

end Volume

namespace Scan

open DirectoryEntryChain

variable {size n : Nat} {v : Volume size} {fs : FileSystem size n} {chain : DirectoryEntryChain size} {c d k q : Nat}
  {s : Scan size n}

/-- At the place of an entry, the reader hands it over if its sector has a 32-bit number. -/
theorem deliver_ready (mirrors : fs.Mirrors v) (ready : Ready v d q chain) (room : rawEntryLen ≤ size) (low : 2 ≤ d)
    (bound : v.dataSector d (q / dirEntriesPerBlock size) < 2 ^ 32) :
    ∃ fs', deliver ⟨fs, chain⟩ = (.ok (some (v.dirSlot d q)), ⟨fs', chain.delivered v d q⟩) ∧ fs'.Mirrors v := by
  obtain ⟨fs', read, mirrors'⟩ := mirrors.read .data (v.slotLocation d q).sectorId
  refine ⟨_, ready.deliver room low bound read, ?_⟩
  split
  · exact mirrors'
  · exact mirrors

theorem deliver_panics (ready : Ready v d q chain) (low : 2 ≤ d) (room : rawEntryLen ≤ size)
    (bound : ¬ v.dataSector d (q / dirEntriesPerBlock size) < 2 ^ 32) (fs : FileSystem size n) :
    (deliver ⟨fs, chain⟩).1 = .error .panic := by
  have some_ : 0 < dirEntriesPerBlock size := Nat.div_pos room (by decide)
  have current : getCurrentSectorId ⟨fs, chain⟩ = (.error .panic, ⟨fs, chain⟩) := by
    rw [ready.currentSector low, if_neg bound]
  rw [deliver, Exec.bind_of_ok (Exec.get_apply _)]
  dsimp only
  by_cases required : chain.fetchRequired = true
  · have fetched : fetch ⟨fs, chain⟩ = (.error .panic, ⟨fs, chain⟩) := by rw [fetch, Exec.bind_of_error current]
    rw [if_pos required, Exec.bind_of_error fetched]
  · rw [if_neg required, handOver, Exec.bind_of_ok (Exec.get_apply _)]
    dsimp only
    rw [Exec.bind_of_ok (Exec.assert_of (by rw [ready.entry]; exact Nat.mod_lt q some_) _),
      Exec.bind_of_error current]

/-- The reader has come to the entry with number `k` of the walk: it is in the middle of a
cluster, or at the end of one. -/
structure Walks (v : Volume size) (c k : Nat) (s : Scan size n) : Prop where
  mirrors : s.fs.Mirrors v
  unlimited : s.chain.numEntries = none
  place : ∃ j d q, v.walk c j = some d ∧ k = j * v.clusterSlots + q ∧ q ≤ v.clusterSlots ∧ (q = 0 → j = 0) ∧
    At v d q s.chain

theorem new_walks (mirrors : fs.Mirrors v) (c : Nat) : Walks v c 0 ⟨fs, .new c fs.fs⟩ := by
  have details : fs.fs = v.setup.details := congrArg Setup.details mirrors.setup
  exact ⟨mirrors, rfl, 0, c, 0, rfl, by omega, Nat.zero_le _, fun _ => rfl, details ▸ new_at c⟩

/-- The reader turns the page on, and delivers what is there. -/
theorem next_of_turned {chain' : DirectoryEntryChain size} {fs' : FileSystem size n}
    (unlimited : s.chain.numEntries = none)
    (turn : turnPage s = (.ok true, ⟨fs', chain'⟩)) : next s = deliver ⟨fs', chain'⟩ := by
  rw [next_eq, if_neg (free_of_unlimited unlimited), Exec.bind_of_ok turn]
  rfl

variable (room : rawEntryLen ≤ size) (sectors : 0 < v.setup.details.sectorsPerCluster) (low : 2 ≤ c)

include room sectors low

omit sectors in
/-- In the middle of a cluster the next entry of it is handed over. -/
theorem next_inside {j : Nat} (mirrors : fs.Mirrors v) (unlimited : chain.numEntries = none)
    (here : v.walk c j = some d)
    (inside : q < v.clusterSlots) (first : q = 0 → j = 0) (at_ : At v d q chain) :
    (v.Addresses c (j * v.clusterSlots + q) → ∃ s',
      next ⟨fs, chain⟩ = (.ok (v.slotAt c (j * v.clusterSlots + q)), s') ∧
        Walks v c (j * v.clusterSlots + q + 1) s') ∧ 
      (¬ v.Addresses c (j * v.clusterSlots + q) → (next ⟨fs, chain⟩).1 = .error .panic) := by
  have low' := v.walk_low low j here
  obtain ⟨turn, ready⟩ := turnPage_within room at_ inside fs
  rw [Volume.addresses_within here inside first, Volume.slotAt_within here inside, next_of_turned unlimited turn]
  refine ⟨fun bound => ?_, fun bound => deliver_panics ready low' room bound fs⟩
  obtain ⟨fs', run, mirrors'⟩ := deliver_ready mirrors ready room low' bound
  exact ⟨_, run, mirrors', turned_cursor.2.trans unlimited, j, d, q + 1, here, by omega, inside, by omega,
    ready.delivered⟩

/-- At the end of a cluster the walk goes on to the first entry of the next one, or ends. -/
theorem next_at_end {j start : Nat} (begins : v.setup.startOfFatSector = some start) (mirrors : fs.Mirrors v)
    (unlimited : chain.numEntries = none) (here : v.walk c j = some d) (at_ : At v d v.clusterSlots chain) :
    (v.Addresses c (j * v.clusterSlots + v.clusterSlots) →
        ∃ s', next ⟨fs, chain⟩ = (.ok (v.slotAt c (j * v.clusterSlots + v.clusterSlots)), s') ∧
          ((v.slotAt c (j * v.clusterSlots + v.clusterSlots)).isSome = true →
            Walks v c (j * v.clusterSlots + v.clusterSlots + 1) s')) ∧
      (¬ v.Addresses c (j * v.clusterSlots + v.clusterSlots) → (next ⟨fs, chain⟩).1 = .error .panic) := by
  have low' := v.walk_low low j here
  have some_ : 0 < v.clusterSlots := Nat.mul_pos sectors (Nat.div_pos room (by decide))
  rw [Volume.addresses_next here some_, Volume.slotAt_next here some_]
  by_cases linked : v.fatSector d < 2 ^ 32
  · obtain ⟨fs', follow, mirrors'⟩ := mirrors.nextCluster begins low' linked
    have turn := turnPage_follow room at_ follow
    cases link : v.next d with
    | none =>
      rw [link] at turn
      have none_ : next ⟨fs, chain⟩ = (.ok none, ⟨fs', chain.turned⟩) := by
        rw [next_eq, if_neg (free_of_unlimited unlimited), Exec.bind_of_ok turn]
        rfl
      exact ⟨fun _ => ⟨_, none_, fun some_ => by cases some_⟩, fun bound =>
        absurd ⟨linked, fun e same => by cases same⟩ bound⟩
    | some e =>
      rw [link] at turn
      have there : v.walk c (j + 1) = some e := (Volume.walk_succ here).trans link
      have low'' := v.walk_low low (j + 1) there
      have ready : Ready v e 0 (chain.turned.entered e) :=
        ⟨(at_.turned room).details, rfl, by simp [entered], by simp [entered],
        fun still => by cases still⟩
      rw [next_of_turned unlimited turn]
      refine ⟨fun bound => ?_, fun bound => ?_⟩
      · obtain ⟨fs'', run, mirrors''⟩ :=
          deliver_ready mirrors' ready room low'' (by rw [Nat.zero_div]; exact bound.2 e rfl)
        refine ⟨_, run, fun _ =>
          ⟨mirrors'', ?_, j + 1, e, 1, there, by rw [Nat.succ_mul], some_, by omega, ready.delivered⟩⟩
        exact turned_cursor.2.trans unlimited
      · refine deliver_panics ready low'' room (fun small => bound ⟨linked, fun e' same => ?_⟩) fs'
        rw [Nat.zero_div] at small
        exact Option.some.inj same ▸ small
  · refine ⟨fun both => absurd both.1 linked, fun _ => ?_⟩
    have follow : (onFs (Fat.nextClusterInFatChain d) : ExFat (Scan size n) _) ⟨fs, chain.turned⟩ =
      (.error .panic, ⟨fs, chain.turned⟩) :=
      Exec.zoom_of_run (mirrors.nextCluster_panics begins low' linked)
    have turn : turnPage ⟨fs, chain⟩ = (.error .panic, ⟨fs, chain.turned⟩) := by
      rw [enterCluster_end room at_, Exec.bind_of_error follow]
    rw [next_eq, if_neg (free_of_unlimited unlimited), Exec.bind_of_error turn]

/-- What the next call of `next` returns: the entry of the walk, nothing at its end, and a panic
where a sector number overflows. -/
theorem Walks.step {start : Nat} (begins : v.setup.startOfFatSector = some start) (walks : Walks v c k s) :
    (v.Addresses c k → ∃ s', next s = (.ok (v.slotAt c k), s') ∧
      ((v.slotAt c k).isSome = true → Walks v c (k + 1) s')) ∧
      (¬ v.Addresses c k → (next s).1 = .error .panic) := by
  obtain ⟨fs, chain⟩ := s
  obtain ⟨mirrors, unlimited, j, d, q, here, rfl, within, first, at_⟩ := walks
  by_cases inside : q < v.clusterSlots
  · obtain ⟨goes, panics⟩ := next_inside room low mirrors unlimited here inside first at_
    exact ⟨fun all => (goes all).imp fun s' => And.imp_right fun walks _ => walks, panics⟩
  · obtain rfl : q = v.clusterSlots := by omega
    exact next_at_end room sectors low begins mirrors unlimited here at_

variable {start : Nat} (begins : v.setup.startOfFatSector = some start)

include begins

/-- What the calls of `next` hand out are the entries of the walk in order. -/
theorem Walks.pulled (es : List DirSlot) : ∀ {k : Nat} {s t : Scan size n}, Walks v c k s → Pulls next es s t →
    Walks v c (k + es.length) t ∧ ∀ i < es.length, v.Addresses c (k + i) ∧ v.slotAt c (k + i) = es[i]? := by
  induction es with
  | nil =>
    intro k s t walks pulls
    cases pulls
    exact ⟨walks, fun i inside => absurd inside (Nat.not_lt_zero i)⟩
  | cons e es ih =>
    rintro k s t walks ⟨s', run, rest⟩
    obtain ⟨goes, panics⟩ := walks.step room sectors low begins
    have all : v.Addresses c k := by
      by_contra none_
      cases (congrArg Prod.fst run).symm.trans (panics none_)
    obtain ⟨s'', run', later⟩ := goes all
    have slot : v.slotAt c k = some e := Except.ok.inj (Prod.mk.inj (run'.symm.trans run)).1
    rw [slot] at run'
    cases run.symm.trans run'
    obtain ⟨walks', others⟩ := ih (later (by rw [slot]; rfl)) rest
    rw [Nat.add_right_comm] at walks'
    refine ⟨walks', fun i inside => ?_⟩
    rcases i with _ | i
    · exact ⟨all, slot⟩
    · have there := others i (Nat.lt_of_succ_lt_succ inside)
      rwa [Nat.add_right_comm] at there

/-- The first entries of the walk are handed out. -/
theorem Walks.pulls (es : List DirSlot) : ∀ {k : Nat} {s : Scan size n}, Walks v c k s →
    (∀ i < es.length, v.Addresses c (k + i) ∧ v.slotAt c (k + i) = es[i]?) → ∃ t, Pulls next es s t := by
  induction es with
  | nil => exact fun {k s} _ _ => ⟨s, .nil s⟩
  | cons e es ih =>
    intro k s walks entries
    obtain ⟨all, slot⟩ := entries 0 (Nat.succ_pos _)
    rw [Nat.add_zero] at all slot
    obtain ⟨s', run, later⟩ := (walks.step room sectors low begins).1 all
    rw [slot] at run later
    obtain ⟨t, pulls⟩ := ih (later rfl) fun i inside => by
      have there := entries (i + 1) (Nat.succ_lt_succ inside)
      rwa [← Nat.add_assoc, Nat.add_right_comm] at there
    exact ⟨t, pulls.cons run⟩

omit low begins in
/-- There are no clusters 0 and 1. -/
theorem new_refuses (mirrors : fs.Mirrors v) (none_ : c < 2) :
    (next ⟨fs, .new c fs.fs⟩).1 = .error (.error (.invalidClusterId c)) := by
  have some_ : 0 < dirEntriesPerBlock size := Nat.div_pos room (by decide)
  have details : fs.fs = v.setup.details := congrArg Setup.details mirrors.setup
  have at_ : At v c 0 (.new c fs.fs) := details ▸ new_at c
  obtain ⟨turn, _⟩ := turnPage_within room at_ (Nat.mul_pos sectors some_) fs
  have still : (DirectoryEntryChain.new c fs.fs : DirectoryEntryChain size).turned = .new c fs.fs := by
    exact if_neg (show ¬ dirEntriesPerBlock size ≤ 0 by omega)
  have current : getCurrentSectorId (⟨fs, .new c fs.fs⟩ : Scan size n) =
      (.error (.error (.invalidClusterId c)), ⟨fs, .new c fs.fs⟩) := by
    rw [getCurrentSectorId, Exec.bind_of_ok (Exec.get_apply _)]
    dsimp only [DirectoryEntryChain.new]
    rw [FileSystemDetails.getHeapSectorId, if_pos none_]
    rfl
  have fetched : fetch (⟨fs, .new c fs.fs⟩ : Scan size n) =
      (.error (.error (.invalidClusterId c)), ⟨fs, .new c fs.fs⟩) := by
    rw [fetch, Exec.bind_of_error current]
  rw [next_of_turned rfl turn, still, deliver, Exec.bind_of_ok (Exec.get_apply _)]
  dsimp only
  rw [if_pos (show (DirectoryEntryChain.new c fs.fs : DirectoryEntryChain size).fetchRequired = true from rfl),
    Exec.bind_of_error fetched]

omit low in
/-- A scan from a cluster has a cause to end exactly when the walk halts it. -/
theorem cause_iff_halts (mirrors : fs.Mirrors v) {stop : List DirSlot → Prop} :
    (∃ es t, Pulls next es ⟨fs, .new c fs.fs⟩ t ∧ Drains.Cause next stop es t) ↔ v.Halts c stop := by
  have walks := new_walks mirrors c
  by_cases low : 2 ≤ c
  · rw [Volume.Halts, or_iff_right (Nat.not_lt.mpr low)]
    constructor
    · rintro ⟨es, t, pulls, cause⟩
      obtain ⟨walks', entries⟩ := walks.pulled room sectors low begins es pulls
      simp only [Nat.zero_add] at walks' entries
      refine ⟨es, entries, ?_⟩
      obtain ⟨goes, panics⟩ := walks'.step room sectors low begins
      by_cases all : v.Addresses c es.length
      · obtain ⟨s', run, _⟩ := goes all
        refine cause.imp_right fun cause => ⟨all, ?_⟩
        rw [run] at cause
        rcases cause with none_ | ⟨e, fault⟩
        · exact Except.ok.inj none_
        · cases fault
      · rw [Drains.Cause, panics all] at cause
        rcases cause with halt | none_ | ⟨e, fault⟩
        · exact Or.inl halt
        · cases none_
        · cases fault
    · rintro ⟨es, entries, reason⟩
      obtain ⟨t, pulls⟩ := walks.pulls room sectors low begins es fun i inside => by
        rw [Nat.zero_add]
        exact entries i inside
      have walks' := (walks.pulled room sectors low begins es pulls).1
      rw [Nat.zero_add] at walks'
      refine ⟨es, t, pulls, reason.imp_right ?_⟩
      rintro ⟨all, none_⟩
      obtain ⟨s', run, _⟩ := (walks'.step room sectors low begins).1 all
      exact Or.inl (by rw [run, none_])
  · have first : c < 2 := Nat.lt_of_not_le low
    exact iff_of_true ⟨[], _, .nil _, Or.inr (Or.inr ⟨_, new_refuses room sectors mirrors first⟩)⟩ (Or.inl first)

end Scan

namespace FileSystem

open DirectoryEntryChain

variable {size n : Nat} {fs : FileSystem size n}

/-- What a scan needs to know of the volume it runs on: there is a FAT, and room for an entry. -/
structure Scannable (v : Volume size) (fs : FileSystem size n) : Prop where
  mirrors : fs.Mirrors v
  room : rawEntryLen ≤ size
  sectors : 0 < v.setup.details.sectorsPerCluster
  begins : ∃ start, v.setup.startOfFatSector = some start

namespace Scannable

variable {v : Volume size} (scannable : Scannable v fs) (c : Nat)

include scannable

theorem shows : (⟨fs, .new c fs.fs⟩ : Scan size n).Shows (fun _ => .data) v :=
  ⟨(scannable.mirrors _).1, (scannable.mirrors _).2⟩

/-- A scan that reads until it is stopped finishes exactly when the walk halts it. -/
theorem finishes_iff {α : Type} {stop : List DirSlot → Prop} {m : Nat → ExFat (Scan size n) α}
    (grows : ∀ es es', stop es → stop (es ++ es'))
    (drains : ∀ fuel, Drains next stop fuel ⟨fs, .new c fs.fs⟩ (m fuel ⟨fs, .new c fs.fs⟩).1) :
    Finishes m ⟨fs, .new c fs.fs⟩ ↔ v.Halts c stop := by
  obtain ⟨start, begins⟩ := scannable.begins
  rw [Drains.finishes_iff grows drains]
  exact Scan.cause_iff_halts scannable.room scannable.sectors begins scannable.mirrors

theorem nextFileDirEntry_finishes :
    Finishes nextFileDirEntry (⟨fs, .new c fs.fs⟩ : Scan size n) ↔ v.Halts c FileStop :=
  scannable.finishes_iff c (fun _ es' => exists_mem_append_left es') (nextFileDirEntry_drains _)

theorem nextFileEntry_finishes (filter : DirectoryEntryFilter) (nameBuf : Option Nat) :
    Finishes (nextFileEntry filter nameBuf) (⟨fs, .new c fs.fs⟩ : Scan size n) ↔
      v.Halts c (SearchSettled filter v.setup.upcaseTable) := by
  have same : SearchSettled filter v.setup.upcaseTable = SetStop filter v.setup.upcaseTable :=
    funext fun es => propext (Progress.setStop_iff es).symm
  rw [same]
  exact scannable.finishes_iff c setStop_grows fun fuel => nextFileEntry_drains nameBuf fuel (scannable.shows c)

theorem confirmHasNoChildren_finishes {details : FileDetails}
    (directory : details.attributes.contains attrDirectory = true) :
    Finishes (fun fuel => confirmHasNoChildren fuel details) fs ↔ v.Halts details.firstCluster ChildStop := by
  have scan : ∀ fuel, (confirmHasNoChildren fuel details fs).1 =
      (noChildrenIn fuel ⟨fs, .new details.firstCluster fs.fs⟩).1 := by
    intro fuel
    rw [confirmHasNoChildren, if_pos directory]
    rfl
  rw [← scannable.finishes_iff details.firstCluster (fun _ es' => exists_mem_append_left es') fun fuel =>
    noChildrenIn_drains fuel _]
  exact exists_congr fun fuel => by rw [scan]

theorem findEmptyDirEntrySet_finishes (len : Nat) :
    Finishes (fun fuel => findEmptyDirEntrySet fuel c len) fs ↔ v.Halts c (RoomStop len) := by
  have same : Fills len 0 = RoomStop len := funext fun es => propext (fills_zero_iff es)
  have grows : ∀ es es', RoomStop len es → RoomStop len (es ++ es') := by
    rintro es es' ⟨pos, k, row⟩
    refine ⟨pos, k, fun j inside => ?_⟩
    obtain ⟨e, here, free⟩ := row j inside
    exact ⟨e, List.getElem?_append_left (List.getElem?_eq_some_iff.mp here).1 ▸ here, free⟩
  have drains := fun fuel => emptyRunIn_drains len fuel 0 none (⟨fs, .new c fs.fs⟩ : Scan size n)
  rw [same] at drains
  rw [← scannable.finishes_iff c grows drains]
  refine exists_congr fun fuel => ?_
  have scan : (findEmptyDirEntrySet fuel c len fs).1 = match (emptyRunIn len fuel 0 none ⟨fs, .new c fs.fs⟩).1 with
      | .ok (some location) => .ok location
      | .ok none => .error (.error .directoryFull)
      | .error f => .error f := by
    have run : scanning (.new c fs.fs) (emptyRunIn len fuel 0 none) fs =
      ((emptyRunIn len fuel 0 none ⟨fs, .new c fs.fs⟩).1,
        (emptyRunIn len fuel 0 none ⟨fs, .new c fs.fs⟩).2.fs) := rfl
    rw [findEmptyDirEntrySet, Exec.bind_of_ok (Exec.get_apply fs), Exec.bind_apply, run]
    rcases (emptyRunIn len fuel 0 none ⟨fs, .new c fs.fs⟩).1 with f | _ | location
    · rfl
    · rfl
    · rfl
  rw [scan]
  rcases (emptyRunIn len fuel 0 none ⟨fs, .new c fs.fs⟩).1 with f | _ | location
  · cases f <;> rfl
  · rfl
  · rfl

end Scannable

/-- The volume on a device, with what a mounted file system has found out about it. -/
def image (dev : BlockDevice size) (fs : FileSystem size n) : Volume size := ⟨fs.setup, dev.blocks⟩

variable [NeZero n] {dev : BlockDevice size} {usizeBits : Nat}

theorem scannable_of_mount (reliable : dev.Reliable) (run : mount (.new dev usizeBits) = (.ok (), fs)) :
    Scannable (fs.image dev) fs := by
  have mounts := mount_ok rfl run
  have device := mounts.device
  have long := mounts.boot.long
  have reliable' : fs.dev.Reliable := by
    rw [BlockDevice.Reliable] at reliable ⊢
    rw [device]
    simp [BlockDevice.afterRead, new, reliable]
  have mirrors := Mirrors.of_new reliable' fun k => (mounts.caches k).trans (by cases k <;> rfl)
  have blocks : fs.dev.blocks = dev.blocks := by
    rw [device]
    rfl
  rw [blocks] at mirrors
  refine ⟨mirrors, le_trans (by decide) long, ?_, _, congrArg Fat.startOfFatSector mounts.fat⟩
  have details : fs.setup.details = .new (.ofBlock (dev.blocks 0)) := mounts.details
  rw [image, details]
  exact Nat.two_pow_pos _

/-- After a mount, a scan of a directory comes to a result exactly when the walk
through the FAT from its first cluster halts it. -/
theorem mount_scans_finish_iff (reliable : dev.Reliable) (run : mount (.new dev usizeBits) = (.ok (), fs)) (c : Nat) :
    (Finishes nextFileDirEntry ⟨fs, .new c fs.fs⟩ ↔ (fs.image dev).Halts c FileStop) ∧
    (∀ (filter : DirectoryEntryFilter) (nameBuf : Option Nat),
      Finishes (nextFileEntry filter nameBuf) ⟨fs, .new c fs.fs⟩ ↔
        (fs.image dev).Halts c (SearchSettled filter fs.upcaseTable)) ∧
    (∀ details : FileDetails, details.firstCluster = c → details.attributes.contains attrDirectory = true →
      (Finishes (fun fuel => confirmHasNoChildren fuel details) fs ↔ (fs.image dev).Halts c ChildStop)) ∧
    ∀ len : Nat, Finishes (fun fuel => findEmptyDirEntrySet fuel c len) fs ↔
      (fs.image dev).Halts c (RoomStop len) := by
  have scannable := scannable_of_mount reliable run
  refine ⟨scannable.nextFileDirEntry_finishes c, scannable.nextFileEntry_finishes c, ?_,
    scannable.findEmptyDirEntrySet_finishes c⟩
  rintro details rfl directory
  exact scannable.confirmHasNoChildren_finishes directory

/-- The clusters 5 and 6 are linked to themselves. The entries in the one are
those of names, and those in the other are not in use. -/
def loopedDevice : BlockDevice 512 :=
  let blank : Block 512 := fun _ => 0
  let free : RawDirEntry := Block.patch (fun _ => 0) 0 [0x05]
  (unmountedVolume 9 [] fun s =>
    if s = 20 then (blank.patch 20 (leBytes 4 5)).patch 24 (leBytes 4 6)
    else if s = 103 then entrySector (List.replicate 16 (fileNameSerialize []))
    else if s = 104 then entrySector (List.replicate 16 free)
    else blank).dev

def loopedSystem : FileSystem 512 1 := (mount (.new loopedDevice 64)).2

theorem loopedDevice_reliable : loopedDevice.Reliable := rfl

theorem loopedDevice_mounts : mount (.new loopedDevice 64) = (.ok (), loopedSystem) :=
  Exec.run_of_fst (by decide +kernel)

/-- The root directory has an end marker. -/
theorem mount_scans_finish_iff_root :
    Finishes nextFileDirEntry (⟨loopedSystem, .new 2 loopedSystem.fs⟩ : Scan 512 1) := by
  have sectors : ∀ k < 4, (loopedSystem.image loopedDevice).dataSector 2 (k / dirEntriesPerBlock 512) < 2 ^ 32 := by
    decide +kernel
  have begins : (loopedSystem.image loopedDevice).Begins 2
      ((List.range 4).map ((loopedSystem.image loopedDevice).dirSlot 2)) := by
    intro k inside
    rw [List.length_map, List.length_range] at inside
    have within : k < (loopedSystem.image loopedDevice).clusterSlots := Nat.lt_of_lt_of_le inside (by decide +kernel)
    have addresses :=
      Volume.addresses_within (v := loopedSystem.image loopedDevice) (c := 2) (j := 0) rfl within fun _ => rfl
    have slot := Volume.slotAt_within (v := loopedSystem.image loopedDevice) (c := 2) (j := 0) rfl within
    rw [Nat.zero_mul, Nat.zero_add] at addresses slot
    refine ⟨addresses.mpr (sectors k inside), ?_⟩
    rw [slot, List.getElem?_map, List.getElem?_range inside]
    rfl
  refine (mount_scans_finish_iff loopedDevice_reliable loopedDevice_mounts 2).1.mpr (Or.inr ⟨_, begins, Or.inl ?_⟩)
  exact ⟨_, List.mem_map_of_mem (List.mem_range.mpr (show 3 < 4 by decide)), Or.inl (by decide +kernel)⟩

end FileSystem

namespace Volume

variable {size : Nat} {v : Volume size} {c : Nat}

theorem walk_loop (loop : v.next c = some c) (j : Nat) : v.walk c j = some c := by
  induction j with
  | zero => rfl
  | succ j ih => rw [walk_succ ih, loop]

/-- A cluster that the FAT links to itself halts no scan that its own entries do not stop. -/
theorem not_halts_of_loop (low : 2 ≤ c) (some_ : 0 < v.clusterSlots) (loop : v.next c = some c) {p : DirSlot → Prop}
    (all : ∀ q < v.clusterSlots, p (v.dirSlot c q)) {stop : List DirSlot → Prop}
    (goes : ∀ es, (∀ e ∈ es, p e) → ¬ stop es) :
    ¬ v.Halts c stop := by
  have slot : ∀ k, v.slotAt c k = some (v.dirSlot c (k % v.clusterSlots)) := by
    intro k
    rw [slotAt, walk_loop loop]
    rfl
  rintro (first | ⟨es, begins, halt | ⟨_, none_⟩⟩)
  · omega
  · refine goes es (fun e member => ?_) halt
    obtain ⟨k, here⟩ := List.mem_iff_getElem?.mp member
    have inside := (List.getElem?_eq_some_iff.mp here).1
    have same := (begins k inside).2
    rw [slot, here] at same
    exact Option.some.inj same ▸ all _ (Nat.mod_lt _ some_)
  · cases (slot _).symm.trans none_

end Volume

namespace FileSystem

open DirectoryEntryChain

/-- A directory in a cluster that is linked to itself is scanned without end. -/
theorem scans_loop : mount (.new loopedDevice 64) = (.ok (), loopedSystem) ∧
    ¬ Finishes nextFileDirEntry ⟨loopedSystem, .new 5 loopedSystem.fs⟩ ∧
    (∀ (filter : DirectoryEntryFilter) (nameBuf : Option Nat),
      ¬ Finishes (nextFileEntry filter nameBuf) ⟨loopedSystem, .new 5 loopedSystem.fs⟩) ∧
    (∀ len : Nat, ¬ Finishes (fun fuel => findEmptyDirEntrySet fuel 5 len) loopedSystem) ∧
    ∀ details : FileDetails, details.firstCluster = 6 → details.attributes.contains attrDirectory = true →
      ¬ Finishes (fun fuel => confirmHasNoChildren fuel details) loopedSystem := by
  have scannable := scannable_of_mount loopedDevice_reliable loopedDevice_mounts
  have some_ : 0 < (loopedSystem.image loopedDevice).clusterSlots := by decide +kernel
  have names : ∀ q < (loopedSystem.image loopedDevice).clusterSlots,
      EntryType.ofByte (((loopedSystem.image loopedDevice).dirSlot 5 q).1.byte 0) = .filename := by decide +kernel
  have unused : ∀ q < (loopedSystem.image loopedDevice).clusterSlots,
    ¬ InUse ((loopedSystem.image loopedDevice).dirSlot 6 q).1 ∧
      isEndOfDirectory ((loopedSystem.image loopedDevice).dirSlot 6 q).1 = false := by decide +kernel
  have here : (loopedSystem.image loopedDevice).next 5 = some 5 := by decide +kernel
  have there : (loopedSystem.image loopedDevice).next 6 = some 6 := by decide +kernel
  have going : ∀ {e : DirSlot}, EntryType.ofByte (e.1.byte 0) = .filename → isEndOfDirectory e.1 = true → False := by
    intro e name halt
    cases name.symm.trans (EntryType.ofByte_zero.mpr (isEnd_byte halt))
  refine ⟨loopedDevice_mounts, ?_, fun filter nameBuf => ?_, fun len => ?_, ?_⟩
  · rw [scannable.nextFileDirEntry_finishes]
    refine Volume.not_halts_of_loop (by decide) some_ here
      (p := fun e => EntryType.ofByte (e.1.byte 0) = .filename) names ?_
    rintro es all ⟨e, member, halt | file⟩
    · exact going (all e member) halt
    · cases (all e member).symm.trans file
  · rw [scannable.nextFileEntry_finishes]
    refine Volume.not_halts_of_loop (by decide) some_ here
      (p := fun e => EntryType.ofByte (e.1.byte 0) = .filename) names ?_
    rintro es all (⟨e, member, halt⟩ | ⟨before, file, after, rfl, isFile, _⟩)
    · exact going (all e member) halt
    · cases (all file (by simp)).symm.trans isFile
  · rw [scannable.findEmptyDirEntrySet_finishes]
    refine Volume.not_halts_of_loop (by decide) some_ here
      (p := fun e => EntryType.ofByte (e.1.byte 0) = .filename) names ?_
    rintro es all ⟨pos, k, row⟩
    obtain ⟨e, at_, free⟩ := row 0 pos
    have name := all e (List.mem_of_getElem? at_)
    rcases EntryType.ofByte_notInUse free with zero | other
    · cases name.symm.trans zero
    · cases name.symm.trans other
  · rintro details first directory
    rw [scannable.confirmHasNoChildren_finishes directory, first]
    refine Volume.not_halts_of_loop (by decide) some_ there
      (p := fun e => ¬ InUse e.1 ∧ isEndOfDirectory e.1 = false) unused ?_
    rintro es all ⟨e, member, halt | used⟩
    · cases (all e member).2.symm.trans halt
    · exact (all e member).1 used

end FileSystem

end ExFatSlim
