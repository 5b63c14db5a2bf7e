import ExFatSlim.HandleRuns
import ExFatSlim.Rewriting

namespace ExFatSlim

namespace Volume

open Session (nextPlace iterate_nextPlace)
open DirectoryEntryChain (dirEntriesPerBlock)

variable {size : Nat} {home : Nat → CacheKind} {v : Volume size} {first i len : Nat} {cs : List Nat}

/-- Wherever the entries from number `i` on go over from a cluster to the next one, that is the
next one on the device too. -/
def Unbroken (v : Volume size) (cs : List Nat) (i len : Nat) : Prop :=
  ∀ q c, i < (q + 1) * v.clusterSlots → (q + 1) * v.clusterSlots < i + len → cs[q]? = some c →
    cs[q + 1]? = some (c + 1)

theorem slotLocation_clusterSlots (some_ : 0 < dirEntriesPerBlock size) {c : Nat} (low : 2 ≤ c) :
    v.slotLocation c v.clusterSlots = v.slotLocation (c + 1) 0 := by
  obtain ⟨d, rfl⟩ : ∃ d, c = d + 2 := ⟨c - 2, by omega⟩
  have after : v.dataSector (d + 2) v.setup.details.sectorsPerCluster = v.dataSector (d + 2 + 1) 0 := by
    rw [dataSector, dataSector, Nat.add_sub_cancel, show d + 2 + 1 - 2 = d + 1 by omega, Nat.succ_mul]
    omega
  rw [slotLocation, slotLocation, clusterSlots, Nat.mul_div_cancel _ some_, Nat.mul_mod_left, Nat.zero_div,
    Nat.zero_mod, after]

section Places

variable (room : rawEntryLen ≤ size) (layout : Layout size home v.setup) (walk : v.Walk home cs)

include room layout walk

/-- The places of a directory are in the data sectors of its clusters. -/
theorem Walk.place_data {m : Nat} {e : DirSlot} (here : (v.dirEntries cs)[m]? = some e) :
    home e.2.sectorId = .data ∧ e.2.sectorId < 2 ^ 32 ∧ ∃ c ∈ cs, ∃ i < v.setup.details.sectorsPerCluster,
      e.2.sectorId = v.dataSector c i := by
  have some_ := clusterSlots_pos room layout
  obtain ⟨c, member, rfl, _⟩ := dirEntries_entryAt some_ here
  have inside : m % v.clusterSlots / dirEntriesPerBlock size < v.setup.details.sectorsPerCluster :=
    (Nat.div_lt_iff_lt_mul (Nat.div_pos room (by decide))).mpr (Nat.mod_lt m some_)
  exact ⟨walk.data c member _ inside, dataSector_lt layout (walk.inHeap c member) inside, c, member, _, inside, rfl⟩

/-- A writer goes on to the next entry of the directory, except at the end of a cluster that the
next one does not follow on the device. -/
theorem Walk.place_succ {m : Nat} {e e' : DirSlot} (here : (v.dirEntries cs)[m]? = some e)
    (there : (v.dirEntries cs)[m + 1]? = some e') :
    e'.2 = nextPlace size e.2 ↔ ∀ q c, (q + 1) * v.clusterSlots = m + 1 → cs[q]? = some c → cs[q + 1]? =
      some (c + 1) := by
  have some_ := clusterSlots_pos room layout
  have per : 0 < dirEntriesPerBlock size := Nat.div_pos room (by decide)
  obtain ⟨c, member, rfl, cluster⟩ := dirEntries_entryAt some_ here
  obtain ⟨d, member', rfl, cluster'⟩ := dirEntries_entryAt some_ there
  have next : nextPlace size (v.slotLocation c (m % v.clusterSlots)) = v.slotLocation c (m % v.clusterSlots + 1) :=
    iterate_nextPlace room v c _ 1
  rw [dirSlot, dirSlot, next]
  have small := Nat.mod_lt m some_
  by_cases full : m % v.clusterSlots + 1 = v.clusterSlots
  · obtain ⟨quotient, rest⟩ := succ_div_mod_full full
    rw [quotient] at cluster'
    rw [rest, full, slotLocation_clusterSlots per (walk.inHeap c member).1]
    constructor
    · intro same q b number atQ
      have index : q = m / v.clusterSlots := by
        rw [← number, Nat.mul_div_cancel _ some_] at quotient
        omega
      subst index
      obtain ⟨sector, _⟩ := Location.mk.inj same
      rw [Nat.zero_div] at sector
      have equal :=
        (dataSector_inj (walk.inHeap d member').1 (Nat.le_succ_of_le (walk.inHeap c member).1)
        layout.sectorsPerCluster
        layout.sectorsPerCluster sector).1
      rw [cluster] at atQ
      cases atQ
      rw [cluster', equal]
    · intro follow
      have number : (m / v.clusterSlots + 1) * v.clusterSlots = m + 1 := by
        have whole := Nat.div_add_mod m v.clusterSlots
        rw [Nat.succ_mul, Nat.mul_comm]
        omega
      have equal := follow _ c number cluster
      rw [cluster'] at equal
      rw [Option.some.inj equal]
  · obtain ⟨quotient, rest⟩ := succ_div_mod_inside (q := m) (e := v.clusterSlots) (by omega)
    rw [quotient, cluster] at cluster'
    cases cluster'
    rw [rest]
    refine iff_of_true rfl fun q b number _ => ?_
    rw [← number, Nat.mul_mod_left] at rest
    omega

/-- In a run that is unbroken the entries are at the places of a writer. -/
theorem Walk.placed_of_unbroken {e : DirSlot} (here : (v.dirEntries cs)[i]? = some e)
    (run : EmptyRun ((v.dirEntries cs).map Prod.fst) i len) (unbroken : v.Unbroken cs i len) : ∀ j, j < len →
    ∃ raw, (v.dirEntries cs)[i + j]? = some (raw, (nextPlace size)^[j] e.2) := by
  obtain ⟨inside, _⟩ := run
  rw [List.length_map] at inside
  intro j
  induction j with
  | zero => exact fun _ => ⟨e.1, here⟩
  | succ j ih =>
    intro below
    obtain ⟨raw, before⟩ := ih (by omega)
    have after := List.getElem?_eq_getElem (l := v.dirEntries cs) (i := i + (j + 1)) (by omega)
    have place := (walk.place_succ room layout before after).mpr fun q c boundary atQ =>
      unbroken q c (by omega) (by omega) atQ
    exact ⟨_, by rw [after, Function.iterate_succ_apply', ← place]⟩

end Places

end Volume

namespace FileSystem

open Volume

variable {size n : Nat} {home : Nat → CacheKind} {fs : FileSystem size n} {first len fuel : Nat} {cs : List Nat}

/-- The search for unused entries in a directory settles in it. -/
theorem findEmptyDirEntrySet_settled (room : rawEntryLen ≤ size) (layout : Layout size home fs.setup)
    (sound : fs.Sound home)
    (dir : (fs.volume home).Directory home first cs) (some_ : 0 < len) (enough : (fs.volume home).mostSlots < fuel) :
    ∃ r, Settled len ((fs.volume home).dirEntries cs) r ∧
      FileSystem.Leads home (findEmptyDirEntrySet fuel first len) fs
      (match r with
        | some location => .ok location
        | none => .error (.error .directoryFull)) (fs.volume home) := by
  have visits := Directory.visits room layout dir sound rfl never
  obtain ⟨r, t, run, shows, settled⟩ := emptyRunIn_settled some_ (dir.length_le.trans_lt enough) visits
  refine ⟨r, settled, t.fs, ?_, shows.sound, shows.volume⟩
  rw [findEmptyDirEntrySet, Exec.bind_of_ok (Exec.get_apply fs), Exec.bind_of_ok (scanning_of_run run)]
  cases r <;> rfl

/-- It comes to the first run that is long enough, if there is one. -/
theorem findEmptyDirEntrySet_first (room : rawEntryLen ≤ size) (layout : Layout size home fs.setup)
    (sound : fs.Sound home)
    (dir : (fs.volume home).Directory home first cs) (some_ : 0 < len)
    (enough : (fs.volume home).mostSlots < fuel) {i : Nat}
    (run : EmptyRun (((fs.volume home).dirEntries cs).map Prod.fst) i len)
    (least : ∀ j < i, ¬ EmptyRun (((fs.volume home).dirEntries cs).map Prod.fst) j len) {e : DirSlot}
    (here : ((fs.volume home).dirEntries cs)[i]? = some e) :
    FileSystem.Leads home (findEmptyDirEntrySet fuel first len) fs (.ok e.2) (fs.volume home) := by
  obtain ⟨r, settled, search⟩ := findEmptyDirEntrySet_settled room layout sound dir some_ enough
  cases settled with
  | @found j e' run' least' here' =>
    have same : j = i := by
      by_contra other
      rcases Nat.lt_or_gt_of_ne other with before | after
      · exact least j before run'
      · exact least' i after run
    subst same
    rw [here] at here'
    cases here'
    exact search
  | short none_ | full none_ => exact absurd run (none_ i)

open File

end FileSystem

end ExFatSlim
