import ExFatSlim.DirectoryEdits

namespace ExFatSlim

open DirectoryEntryChain (listAll dirEntriesPerBlock)

namespace Volume

variable {size : Nat} {home : Nat → CacheKind} {v : Volume size} {c : Nat}

/-- The entries of a directory do not lie in the FAT. -/
theorem DirCluster.next_putEntry (dir : v.DirCluster home c) {k : Nat} (inside : k < v.clusterSlots)
    (raw : RawDirEntry) :
    (v.putEntry (v.slotLocation c k) raw).next c = v.next c := by
  have fat := dir.layout.fatSector_home dir.inHeap
  have data := dir.home_eq inside
  have apart : v.fatSector c ≠ (v.slotLocation c k).sectorId := by
    intro same
    rw [same, data] at fat
    cases fat
  apply next_of_fatEntry
  change ((v.putEntry (v.slotLocation c k) raw).sectors (v.fatSector c)).le _ _ = _
  rw [putEntry, store_sectors_ne _ apart]
  rfl

theorem DirCluster.next_putEntries (raws : List RawDirEntry) : ∀ {k : Nat} {v : Volume size}, v.DirCluster home c →
    k + raws.length ≤ v.clusterSlots → (putEntries c k raws v).next c = v.next c := by
  induction raws with
  | nil => intro k v _ _; rfl
  | cons raw raws ih =>
    intro k v dir inside
    rw [List.length_cons] at inside
    have rest : (putEntries c (k + 1) raws (v.putEntry (v.slotLocation c k) raw)).next c = _ :=
      ih (dir.of_setup rfl) (by change _ ≤ v.clusterSlots; omega)
    rw [putEntries, rest, dir.next_putEntry (by omega)]

theorem tick_next (v : Volume size) (c : Nat) : v.tick.next c = v.next c := by
  apply next_of_fatEntry
  have sector : v.tick.fatSector c = v.fatSector c := by rw [fatSector, fatSector, tick_setup]
  rw [fatEntry, fatEntry, sector, tick_sectors]

theorem tick_rawEntries (v : Volume size) (c k len : Nat) : v.tick.rawEntries c k len = v.rawEntries c k len := by
  simp only [rawEntries, tick_slotLocation, entryAt, tick_sectors]

theorem rawEntries_part (v : Volume size) (c : Nat) {k len slots : Nat} (inside : k + len ≤ slots) :
    ((v.rawEntries c 0 slots).drop k).take len = v.rawEntries c k len := by
  apply List.ext_getElem
  · simp
    omega
  intro i bound bound'
  simp [rawEntries]

/-- The content of a cluster after entries were put there. -/
theorem DirCluster.rawEntries_all (dir : v.DirCluster home c) {k : Nat} {raws : List RawDirEntry}
    (inside : k + raws.length ≤ v.clusterSlots) : (putEntries c k raws v).rawEntries c 0 v.clusterSlots =
      (v.rawEntries c 0 v.clusterSlots).take k ++
        (raws ++ (v.rawEntries c 0 v.clusterSlots).drop (k + raws.length)) := by
  apply List.ext_getElem
  · simp
    omega
  intro i bound _
  have setup : (putEntries c k raws v).setup = v.setup := putEntries_setup raws k v
  have place := slotLocation_of_setup setup c
  rw [length_rawEntries] at bound
  have read := entryAt_putEntries dir.room raws (c := c) (k := k) (j := i) (v := v)
  have here : ((putEntries c k raws v).rawEntries c 0 v.clusterSlots)[i]? =
      some ((putEntries c k raws v).entryAt (v.slotLocation c i)) := by
    simp [rawEntries, place, bound]
  have old : (v.rawEntries c 0 v.clusterSlots)[i]? = some (v.entryAt (v.slotLocation c i)) := by
    simp [rawEntries, bound]
  apply Option.some.inj
  rw [← List.getElem?_eq_getElem, ← List.getElem?_eq_getElem, here, read]
  by_cases before : i < k
  · rw [if_neg (by omega), List.getElem?_append_left (by simp; omega), List.getElem?_take_of_lt before, old]
  · rw [if_pos (by omega), List.getElem?_append_right (by simp; omega), List.length_take, length_rawEntries,
      Nat.min_eq_left (by omega)]
    by_cases within : i - k < raws.length
    · rw [List.getElem?_append_left within, List.getElem?_eq_getElem within]
      rfl
    · rw [List.getElem?_append_right (by omega), List.getElem?_drop, List.getElem?_eq_none (by omega),
        show k + raws.length + (i - k - raws.length) = i by omega, old]
      rfl

end Volume

namespace Session

open Volume

variable {size n : Nat} {home : Nat → CacheKind} {c : Nat}

/-- Clearing the in-use bit of an entry, as a patch of its sector. -/
theorem patch_cleared (b : Block size) (i : Nat) :
    b.patch (i * rawEntryLen) [b.byte (i * rawEntryLen) &&& 0x7F] =
      b.patch (i * rawEntryLen) ((cleared (b.chunk rawEntryLen i)).slice 0 rawEntryLen) := by
  have small : 0 + [b.byte (i * rawEntryLen) &&& 0x7F].length ≤ rawEntryLen := by
    simp [rawEntryLen]
  have within := Block.patch_patch_within b (b.chunk rawEntryLen i) small (i := i * rawEntryLen)
  have first : (b.chunk rawEntryLen i).byte 0 = b.byte (i * rawEntryLen) := rfl
  rw [Block.patch_chunk_self b, Nat.add_zero, ← first] at within
  rw [← first]
  exact within

/-- Where an entry is that a writer has come to. -/
def settled (size : Nat) (location : Location) : Location :=
  if location.dirEntryOffset = dirEntriesPerBlock size then ⟨location.sectorId + 1, 0⟩ else location

theorem settled_slotLocation {v : Volume size} (dir : v.DirCluster home c) (k : Nat) :
    settled size (v.slotLocation c k) = v.slotLocation c k := by
  have small : k % dirEntriesPerBlock size < dirEntriesPerBlock size := Nat.mod_lt k dir.entries_pos
  exact if_neg small.ne

theorem settled_succ {v : Volume size} (dir : v.DirCluster home c) (k : Nat) :
    settled size { v.slotLocation c k with dirEntryOffset := (v.slotLocation c k).dirEntryOffset + 1 } =
      v.slotLocation c (k + 1) := by
  rw [Volume.slotLocation_succ dir.room]
  rfl

/-- One round of the loop, at the place of the entry, and the rounds after it. -/
def markFrom (rounds : Nat) (location : Location) : ExFat (Session size n) Unit := do
  Exec.assert (location.dirEntryOffset * rawEntryLen < size)
  let _ ← onCache .data (SlotCache.readMut location.sectorId fun b =>
    b.patch (location.dirEntryOffset * rawEntryLen) [b.byte (location.dirEntryOffset * rawEntryLen) &&& 0x7F])
  insert ⟨.dir, location.sectorId⟩
  markEntriesUnused rounds { location with dirEntryOffset := location.dirEntryOffset + 1 }

theorem markEntriesUnused_succ (rounds : Nat) (location : Location) (s : Session size n)
    (bound : (settled size location).sectorId < 2 ^ 32) :
    markEntriesUnused (rounds + 1) location s = markFrom rounds (settled size location) s := by
  rw [markEntriesUnused]
  unfold settled dirEntriesPerBlock at *
  split
  · rename_i full
    rw [if_pos full] at bound
    rw [Exec.bind_of_ok (u32_of_lt bound s)]
    rfl
  · rfl

theorem markEntriesUnused_leads (rounds : Nat) :
    ∀ {k : Nat} {location : Location} {s : Session size n}, s.fs.Sound home →
    (s.fs.volume home).DirCluster home c → k + rounds ≤ (s.fs.volume home).clusterSlots →
    settled size location = (s.fs.volume home).slotLocation c k →
    Session.Leads home (markEntriesUnused rounds location) s (.ok ())
      (putEntries c k (((s.fs.volume home).rawEntries c k rounds).map cleared) (s.fs.volume home)) := by
  induction rounds with
  | zero =>
    intro k location s sound _ _ _
    exact .of_run rfl sound rfl
  | succ rounds ih =>
    intro k location s sound dir inside here
    have fits := slot_fits dir.room (s.fs.volume home) c k
    have sector := dir.home_eq (k := k) (by omega)
    have bound : ((s.fs.volume home).slotLocation c k).sectorId < 2 ^ 32 :=
      (s.fs.volume home).dataSector_lt dir.layout dir.inHeap (dir.sector_lt (by omega))
    have round : Session.Leads home (markFrom rounds ((s.fs.volume home).slotLocation c k)) s (.ok ())
        (putEntries c k (((s.fs.volume home).rawEntries c k (rounds + 1)).map cleared) (s.fs.volume home)) := by
      refine .step (Exec.assert_of (by simp only [rawEntryLen] at fits ⊢; omega) s) ?_
      refine (Session.leads_readMut sound sector _).bind fun s₁ sound₁ shown₁ => ?_
      refine (Session.leads_insert sound₁ _).bind fun s₂ sound₂ shown₂ => ?_
      have shown : s₂.fs.volume home = (s.fs.volume home).putEntry ((s.fs.volume home).slotLocation c k)
          (cleared ((s.fs.volume home).entryAt ((s.fs.volume home).slotLocation c k))) := by
        refine (shown₂.trans shown₁).trans ?_
        rw [patch_cleared]
        rfl
      have setup : (s₂.fs.volume home).setup = (s.fs.volume home).setup := by rw [shown, putEntry_setup]
      have place := slotLocation_of_setup setup c
      have slots : (s₂.fs.volume home).clusterSlots = (s.fs.volume home).clusterSlots := by
        rw [clusterSlots, clusterSlots, setup]
      have rest := ih sound₂ (dir.of_setup setup) (by rw [slots]; omega) ((settled_succ dir k).trans (place _).symm)
      have later : (s₂.fs.volume home).rawEntries c (k + 1) rounds =
          (s.fs.volume home).rawEntries c (k + 1) rounds := by
        refine List.map_congr_left fun j member => ?_
        have range := List.mem_range'_1.mp member
        have apart : (s.fs.volume home).slotLocation c j ≠ (s.fs.volume home).slotLocation c k :=
          fun same => by have := slotLocation_inj same; omega
        rw [place, shown, entryAt_putEntry_ne _ apart]
      have split : (s.fs.volume home).rawEntries c k (rounds + 1) =
        (s.fs.volume home).entryAt ((s.fs.volume home).slotLocation c k) ::
          (s.fs.volume home).rawEntries c (k + 1) rounds := by
        rw [rawEntries, List.range'_succ]
        rfl
      rw [split, List.map_cons, putEntries, ← shown, ← later]
      exact rest
    obtain ⟨s', run, last⟩ := round
    refine ⟨s', ?_, last⟩
    rw [markEntriesUnused_succ rounds location s (by rw [here]; exact bound), here]
    exact run

/-- The session has a directory in one cluster, with these entries in it. -/
structure DirHolds (home : Nat → CacheKind) (c : Nat) (d : DirList) (s : Session size n) : Prop where
  sound : s.fs.Sound home
  dir : (s.fs.volume home).DirCluster home c
  last : (s.fs.volume home).next c = none
  clocked : s.fs.setup.Clocked
  content : (s.fs.volume home).rawEntries c 0 (s.fs.volume home).clusterSlots = d.raws

/-- Calling `next_file_entry` for the directory again and again gives these entries. -/
def Lists (home : Nat → CacheKind) (c : Nat) (s : Session size n) (entries : List (FileDetails × List UInt8)) :
    Prop :=
  ∀ fuel rounds, (s.fs.volume home).clusterSlots < fuel → entries.length < rounds → ∃ fs',
    FileSystem.scanning (.new c s.fs.fs) (listAll allPassFilter (some maxNameLen) fuel rounds) s.fs =
      (.ok entries, fs')

variable {d : DirList} {s : Session size n}

theorem DirHolds.length (holds : DirHolds home c d s) : d.raws.length = (s.fs.volume home).clusterSlots := by
  rw [← holds.content, length_rawEntries]

theorem DirHolds.visits (holds : DirHolds home c d s) (stop : RawDirEntry → Bool) :
    Scan.Visits home (s.fs.volume home) stop (placed ((s.fs.volume home).slotLocation c) 0 d.raws)
      (⟨s.fs, .new c s.fs.fs⟩ : Scan size n) := by
  obtain ⟨room, layout, inHeap, data, _⟩ := holds.dir
  have enters := Scan.new_enters room layout holds.sound rfl inHeap data
  rw [← holds.content, placed_rawEntries, ← dirSlots_eq, ← List.append_nil (dirSlots _ _)]
  refine enters.visits room layout inHeap data fun _ s' stands unlimited => ?_
  obtain ⟨s'', run, shows⟩ := stands.next_stops room layout (Scan.free_of_unlimited unlimited) inHeap holds.last
  exact .ended stands.toShows run shows

theorem length_items (place : Nat → Location) (nameBuf : Option Nat) (pieces : List Piece) : ∀ k,
    (items place nameBuf k pieces).length = (pieces.filter Piece.isFile).length := by
  induction pieces with
  | nil => intro k; rfl
  | cons p pieces ih =>
    intro k
    cases p with
    | spare raw unused => exact ih _
    | other raw used => exact ih _
    | file set => exact congrArg (· + 1) (ih _)

theorem DirHolds.lists (holds : DirHolds home c d s) :
    Lists home c s (d.entries ((s.fs.volume home).slotLocation c)) := by
  intro fuel rounds enough few
  have visits := holds.visits isEndOfDirectory
  have length := holds.length
  rw [DirList.raws, List.length_append] at length
  rw [DirList.entries, length_items] at few
  have short : ([] ++ d.pieces.flatMap Piece.raws).length < fuel := by
    rw [List.nil_append]
    omega
  obtain ⟨t, run, _⟩ :=
    DirectoryEntryChain.listAll_run (some maxNameLen) (fun capacity same => (Option.some.inj same).le)
    d.zeros rounds (by simp) short few visits
  exact ⟨t.fs, FileSystem.scanning_of_run run⟩

/-- The search for empty entries ends where there is room for a set. -/
theorem DirHolds.findEmpty (holds : DirHolds home c d s) {len fuel : Nat} (some_ : 0 < len)
    (room : ∃ j, EmptyRun d.raws j len)
    (enough : (s.fs.volume home).clusterSlots < fuel) : ∃ i, EmptyRun d.raws i len ∧ Bounded d.raws i ∧
      FileSystem.Leads home (FileSystem.findEmptyDirEntrySet fuel c len) s.fs
        (.ok ((s.fs.volume home).slotLocation c i)) (s.fs.volume home) := by
  have visits := holds.visits FileSystem.never
  have length := holds.length
  have raws : (placed ((s.fs.volume home).slotLocation c) 0 d.raws).map Prod.fst = d.raws := map_placed _ _ _
  obtain ⟨r, t, run, shows, settled⟩ := FileSystem.emptyRunIn_settled some_
    (show _ < fuel by rw [length_placed]; omega) visits
  obtain ⟨j, free⟩ := room
  cases settled with
  | @found i e result first here =>
    rw [raws] at result first
    rw [placed_get, Nat.zero_add] at here
    obtain ⟨raw, _, rfl⟩ := Option.map_eq_some_iff.mp here
    refine ⟨i, result, result.bounded first, t.fs, ?_, shows.sound, shows.volume⟩
    have scan := FileSystem.scanning_of_run run
    rw [FileSystem.findEmptyDirEntrySet, Exec.bind_of_ok (Exec.get_apply s.fs)]
    exact Exec.bind_of_ok scan
  | short none_ | full none_ =>
    rw [raws] at none_
    exact absurd free (none_ j)

/-- The session after entries of the directory were put there. -/
theorem DirHolds.put (holds : DirHolds home c d s) {s' : Session size n} {d' : DirList} {k : Nat}
    {raws : List RawDirEntry}
    {v : Volume size} (ticked : v = s.fs.volume home ∨ v = (s.fs.volume home).tick) (sound : s'.fs.Sound home)
    (shown : s'.fs.volume home = putEntries c k raws v) (inside : k + raws.length ≤ d.raws.length)
    (content : d'.raws = d.raws.take k ++ (raws ++ d.raws.drop (k + raws.length))) :
    DirHolds home c d' s' ∧ (s'.fs.volume home).clusterSlots = (s.fs.volume home).clusterSlots := by
  have length := holds.length
  have old : v.DirCluster home c ∧ v.next c = none ∧ v.setup.Clocked ∧ v.rawEntries c 0 v.clusterSlots = d.raws ∧
      v.clusterSlots = (s.fs.volume home).clusterSlots := by
    rcases ticked with rfl | rfl
    · exact ⟨holds.dir, holds.last, holds.clocked, holds.content, rfl⟩
    · refine ⟨holds.dir.tick, (tick_next _ c).trans holds.last, ?_, ?_, tick_clusterSlots _⟩
      · rw [tick_setup]
        exact holds.clocked
      · rw [tick_rawEntries, tick_clusterSlots]
        exact holds.content
  obtain ⟨dir, last, clocked, entries, slots⟩ := old
  have setup : (s'.fs.volume home).setup = v.setup := by rw [shown, putEntries_setup]
  have slots' : (s'.fs.volume home).clusterSlots = v.clusterSlots := by rw [clusterSlots, clusterSlots, setup]
  refine ⟨⟨sound, dir.of_setup setup, ?_, ?_, ?_⟩, slots'.trans slots⟩
  · rw [shown, dir.next_putEntries raws (by omega), last]
  · rw [← setup] at clocked
    exact clocked
  · rw [slots', shown, dir.rawEntries_all (by omega), entries, content]

/-- The new entry has a name that is accepted, and the directory has room for its set. -/
structure Creatable (home : Nat → CacheKind) (c : Nat) (e : NewEntry) (s : Session size n) : Prop where
  fits : e.Fits
  accepted : ∃ nameHash count,
    (encodeUtf16UpcaseAndHash e.name s.fs.upcaseTable : ExFat (Session size n) (Nat × Nat)) s =
    (.ok (nameHash, count), s)
  room : ∃ j, EmptyRun ((s.fs.volume home).rawEntries c 0 (s.fs.volume home).clusterSlots) j e.setLen

theorem DirHolds.create (holds : DirHolds home c d s) {e : NewEntry} (creatable : Creatable home c e s) {fuel : Nat}
    (enough : (s.fs.volume home).clusterSlots < fuel) : ∃ details s' d' l₁ l₂, e.create fuel c s = (.ok details, s') ∧
      DirHolds home c d' s' ∧ (s'.fs.volume home).clusterSlots = (s.fs.volume home).clusterSlots ∧
        Lists home c s (l₁ ++ l₂) ∧
      Lists home c s'
        (l₁ ++ ({ details with accessed := { details.accessed with increment10ms := 0 } }, encodeUtf8 e.name) ::
        l₂) := by
  obtain ⟨fits, ⟨nameHash, count, accepted⟩, room⟩ := creatable
  obtain ⟨hash, rfl, units, _⟩ := encodeUtf16UpcaseAndHash_ok accepted
  have named : 0 < e.units.length := units
  have length := holds.length
  have few := (NewEntry.setLen_bounds fits.short).1
  rw [holds.content] at room
  obtain ⟨i, free, bounded, found⟩ := holds.findEmpty (by omega) room enough
  have inside := free.1
  obtain ⟨s', run, sound, shown⟩ :=
    NewEntry.create_leads holds.dir.stretch holds.clocked fits.short accepted found (by omega)
  have shown : s'.fs.volume home = putEntries c i (e.raws nameHash s.fs.setup.now) (s.fs.volume home).tick := shown
  have clock := holds.clocked.now_fits
  have size' : (e.toSet nameHash s.fs.setup.now fits hash named clock).raws.length = e.setLen := by
    rw [NewEntry.toSet_raws fits hash named clock, NewEntry.length_raws fits.short]
  obtain ⟨d', content, entries⟩ := d.exists_inserts (e.toSet nameHash s.fs.setup.now fits hash named clock)
    (by rw [size']; exact free) bounded
  rw [NewEntry.toSet_raws fits hash named clock] at content
  obtain ⟨holds', slots⟩ := holds.put (Or.inr rfl) sound shown
    (by rw [NewEntry.length_raws fits.short]; exact inside) content
  obtain ⟨l₁, l₂, before, after⟩ := entries ((s.fs.volume home).slotLocation c)
  have place : (s'.fs.volume home).slotLocation c = (s.fs.volume home).slotLocation c := by
    funext k
    have setup : (s'.fs.volume home).setup = (s.fs.volume home).tick.setup := by rw [shown, putEntries_setup]
    rw [slotLocation_of_setup setup, tick_slotLocation]
  have lists := holds'.lists
  rw [place, after, NewEntry.toSet_details fits hash named clock] at lists
  exact ⟨_, s', d', l₁, l₂, run, holds', slots, before ▸ holds.lists, lists⟩

theorem DirHolds.remove (holds : DirHolds home c d s) {entry : FileDetails × List UInt8}
    (listed : entry ∈ d.entries ((s.fs.volume home).slotLocation c)) : ∃ s' d' l₁ l₂,
      markDirectoryEntrySetUnused entry.1.location (entry.1.secondaryCount + 1) s = (.ok (), s') ∧
      DirHolds home c d' s' ∧ (s'.fs.volume home).clusterSlots = (s.fs.volume home).clusterSlots ∧
      Lists home c s (l₁ ++ entry :: l₂) ∧ Lists home c s' (l₁ ++ l₂) := by
  have length := holds.length
  obtain ⟨i, set, d', rfl, inside, here, content, entries⟩ := d.exists_removes listed
  have count : (set.details ((s.fs.volume home).slotLocation c i)).secondaryCount + 1 = set.raws.length :=
    set.length_raws.symm
  have marked := markEntriesUnused_leads (k := i) set.raws.length holds.sound holds.dir (by omega)
    (settled_slotLocation holds.dir i)
  have raws := rawEntries_part (s.fs.volume home) c (length ▸ inside)
  rw [holds.content, here] at raws
  rw [← raws] at marked
  obtain ⟨s', run, sound, shown⟩ := marked
  have shown : s'.fs.volume home = putEntries c i (set.raws.map cleared) (s.fs.volume home) := shown
  obtain ⟨holds', slots⟩ := holds.put (Or.inl rfl) sound shown (by rw [List.length_map]; exact inside)
    (by rw [List.length_map]; exact content)
  obtain ⟨l₁, l₂, before, after⟩ := entries ((s.fs.volume home).slotLocation c)
  have place : (s'.fs.volume home).slotLocation c = (s.fs.volume home).slotLocation c := by
    funext k
    have setup : (s'.fs.volume home).setup = (s.fs.volume home).setup := by rw [shown, putEntries_setup]
    rw [slotLocation_of_setup setup]
  have lists := holds'.lists
  rw [place, after] at lists
  refine ⟨s', d', l₁, l₂, ?_, holds', slots, before ▸ holds.lists, lists⟩
  rw [markDirectoryEntrySetUnused, count]
  exact run

/-- One step of an editing run: an entry is created where there is room, or one that is listed is marked unused. -/
inductive EditStep (home : Nat → CacheKind) (fuel c : Nat) : Session size n → Session size n → Prop
  | create {e : NewEntry} {r : Except (Fault ExFatError) FileDetails} {s s' : Session size n} :
      Creatable home c e s → e.create fuel c s = (r, s') → EditStep home fuel c s s'
  | remove {entries : List (FileDetails × List UInt8)} {entry : FileDetails × List UInt8}
      {r : Except (Fault ExFatError) Unit} {s s' : Session size n} :
      Lists home c s entries → entry ∈ entries →
      markDirectoryEntrySetUnused entry.1.location (entry.1.secondaryCount + 1) s = (r, s') →
        EditStep home fuel c s s'

theorem Lists.unique {xs ys : List (FileDetails × List UInt8)} (first : Lists home c s xs)
    (second : Lists home c s ys) : xs = ys := by
  obtain ⟨fs₁, run₁⟩ := first _ (max xs.length ys.length + 1) (Nat.lt_succ_self _) (by omega)
  obtain ⟨fs₂, run₂⟩ := second _ (max xs.length ys.length + 1) (Nat.lt_succ_self _) (by omega)
  cases (Prod.mk.inj (run₁.symm.trans run₂)).1
  rfl

theorem DirHolds.step (holds : DirHolds home c d s) {fuel : Nat} (enough : (s.fs.volume home).clusterSlots < fuel)
    {s' : Session size n} (step : EditStep home fuel c s s') :
    ∃ d', DirHolds home c d' s' ∧ (s'.fs.volume home).clusterSlots < fuel := by
  cases step with
  | create creatable run =>
    obtain ⟨_, s₁, d', _, _, run', holds', slots, _⟩ := holds.create creatable enough
    cases (Prod.mk.inj (run.symm.trans run')).2
    exact ⟨d', holds', slots ▸ enough⟩
  | remove lists member run =>
    rw [lists.unique holds.lists] at member
    obtain ⟨s₁, d', _, _, run', holds', slots, _⟩ := holds.remove member
    cases (Prod.mk.inj (run.symm.trans run')).2
    exact ⟨d', holds', slots ▸ enough⟩

theorem DirHolds.steps (holds : DirHolds home c d s) {fuel : Nat} (enough : (s.fs.volume home).clusterSlots < fuel)
    {s' : Session size n} (steps : Relation.ReflTransGen (EditStep home fuel c) s s') :
    ∃ d', DirHolds home c d' s' ∧ (s'.fs.volume home).clusterSlots < fuel := by
  induction steps with
  | refl => exact ⟨d, holds, enough⟩
  | tail _ step ih =>
    obtain ⟨d₁, holds₁, enough₁⟩ := ih
    exact holds₁.step enough₁ step

/-- A directory that fits in one cluster behaves as the list of its entries. Creating an entry
where there is room adds it to the listing and marking a listed entry unused takes it out, with
the others unchanged and in their order, and after any number of such steps the cluster is made
of entry sets, unused entries and a tail of zeros again. -/
theorem directory_is_list (holds : DirHolds home c d s) {fuel : Nat}
    (enough : (s.fs.volume home).clusterSlots < fuel) :
    (∀ e, Creatable home c e s → ∃ details s' l₁ l₂, e.create fuel c s = (.ok details, s') ∧
      Lists home c s (l₁ ++ l₂) ∧
      Lists home c s'
        (l₁ ++ ({ details with accessed := { details.accessed with increment10ms := 0 } }, encodeUtf8 e.name) ::
        l₂)) ∧
    (∀ entries entry, Lists home c s entries → entry ∈ entries → ∃ s' l₁ l₂,
      markDirectoryEntrySetUnused entry.1.location (entry.1.secondaryCount + 1) s = (.ok (), s') ∧
      entries = l₁ ++ entry :: l₂ ∧ Lists home c s' (l₁ ++ l₂)) ∧
    (∀ s', Relation.ReflTransGen (EditStep home fuel c) s s' → ∃ d', DirHolds home c d' s') := by
  refine ⟨fun e creatable => ?_, fun entries entry lists member => ?_, fun s' steps => ?_⟩
  · obtain ⟨details, s', _, l₁, l₂, run, _, _, before, after⟩ := holds.create creatable enough
    exact ⟨details, s', l₁, l₂, run, before, after⟩
  · have same := lists.unique holds.lists
    rw [same] at member
    obtain ⟨s', _, l₁, l₂, run, _, _, before, after⟩ := holds.remove member
    exact ⟨s', l₁, l₂, run, lists.unique before, after⟩
  · obtain ⟨d', holds', _⟩ := holds.steps enough steps
    exact ⟨d', holds'⟩

/-- A file with a name of one character. -/
def letterEntry (letter : Char) : NewEntry := { NewEntry.smallEntry with name := [letter] }

def letterSet (letter : Char) (plain : (letterEntry letter).units.length = 1) : EntrySet :=
  (letterEntry letter).toSet 0 {} ⟨show 5 < 2 ^ 32 by decide, show 7 < 2 ^ 64 by decide, show 300 < 2 ^ 64 by decide,
    plain.trans_le (by decide)⟩ (by decide) (by omega) noClock_fits

/-- The file `f`, what is left of a file `e` that was removed, and the file `g`. -/
def gapList : DirList := ⟨.file (letterSet 'f' rfl) :: (letterSet 'e' rfl).spares ++ [.file (letterSet 'g' rfl)], 7⟩

def gapRoot : Session 512 1 where
  fs := { File.smallVolume with
    dev := ⟨fun s => if s = 100 then fun i => ((gapList.raws[i.val / 32]?).getD zeroEntry).byte (i.val % 32)
      else fun _ => 0,
      [], []⟩ }
  touched := .new

theorem gapRoot_holds : DirHolds File.smallHome 2 gapList gapRoot where
  sound := FileSystem.sound_of_new _ rfl fun k => by cases k <;> rfl
  dir := ⟨by decide, File.smallVolume_layout.of_same rfl rfl rfl rfl, ⟨by decide, by decide⟩, fun i inside => by
    have first : i = 0 := Nat.lt_one_iff.mp inside
    subst first
    decide, by decide⟩
  last := by decide +kernel
  clocked := fun _ none_ => by cases none_
  content := by decide +kernel

/-- What the listing shows of a file that begins at entry `k` of the root directory. -/
def letterItem (letter : Char) (k : Nat) : FileDetails × List UInt8 :=
  ((letterEntry letter).details {} ⟨100, k⟩, [UInt8.ofNat letter.toNat])

theorem gapRoot_lists : Lists File.smallHome 2 gapRoot [letterItem 'f' 0, letterItem 'g' 6] := gapRoot_holds.lists

/-- A file `ab` is created where `e` was, and `f` is removed. -/
theorem directory_is_list_gap :
    (∃ details, ∃ s' : Session 512 1, NewEntry.smallEntry.create 20 2 gapRoot = (.ok details, s') ∧
      ∃ l₁ l₂, l₁ ++ l₂ = [letterItem 'f' 0, letterItem 'g' 6] ∧ Lists File.smallHome 2 s'
        (l₁ ++ ({ details with accessed := { details.accessed with increment10ms := 0 } }, [97, 98]) :: l₂)) ∧
      ∃ s' : Session 512 1, markDirectoryEntrySetUnused ⟨100, 0⟩ 3 gapRoot = (.ok (), s') ∧
        Lists File.smallHome 2 s' [letterItem 'g' 6] := by
  have creatable : Creatable File.smallHome 2 NewEntry.smallEntry gapRoot := by
    refine ⟨⟨by decide, by decide, by decide, by decide⟩, ⟨0, 2, rfl⟩, 3, ?_, fun i raw low high here => ?_⟩
    · decide +kernel
    · rw [gapRoot_holds.content] at here
      have spare : ((gapList.raws.drop 3).take 3).all (fun raw => decide (raw.byte 0 &&& 0x80 = 0)) = true := by
        decide +kernel
      have inside : i < 6 := high
      have clear := List.all_eq_true.mp spare raw (List.mem_of_getElem? (i := i - 3) ?_)
      · exact not_not_intro (of_decide_eq_true clear)
      rw [List.getElem?_take_of_lt (by omega), List.getElem?_drop, Nat.add_sub_cancel' low]
      exact here
  have enough : (gapRoot.fs.volume File.smallHome).clusterSlots < 20 := by decide
  obtain ⟨created, removed, _⟩ := directory_is_list gapRoot_holds enough
  refine ⟨?_, ?_⟩
  · obtain ⟨details, s', l₁, l₂, run, before, after⟩ := created _ creatable
    exact ⟨details, s', run, l₁, l₂, before.unique gapRoot_lists, after⟩
  · obtain ⟨s', l₁, l₂, run, split, after⟩ := removed _ _ gapRoot_lists List.mem_cons_self
    refine ⟨s', run, ?_⟩
    rcases l₁ with _ | ⟨first, l₁⟩
    · cases split
      exact after
    · have others := (List.cons.inj split).2
      have member : letterItem 'f' 0 ∈ [letterItem 'g' 6] := others ▸ List.mem_append_right l₁ List.mem_cons_self
      exact absurd (congrArg Prod.snd (List.mem_singleton.mp member)) (by decide)

end Session

end ExFatSlim
