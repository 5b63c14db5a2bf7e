import ExFatSlim.FailedCalls
import ExFatSlim.FreeRuns
import ExFatSlim.SetUpdates

namespace ExFatSlim

open Session (nextPlace)

namespace DirSetWriter

variable {size : Nat}

/-- The places where a writer puts so many entries. -/
def putPlaces (size : Nat) : Nat → DirSetWriter → List Location
  | 0, _ => []
  | rounds + 1, w => w.current ::
    match (w.nextDirEntryLocation size : ExFat Unit DirSetWriter) () with
    | (.ok w, _) => putPlaces size rounds w
    | (.error _, _) => []

theorem putPlaces_next {w : DirSetWriter} (small : (nextPlace size w.current).sectorId < 2 ^ 32) (rounds : Nat) :
    putPlaces size (rounds + 1) w = w.current :: putPlaces size rounds
    { w with current := nextPlace size w.current } := by
  rw [putPlaces, Session.nextDirEntryLocation_place small ()]

/-- The writer does not go on after the last sector of all. -/
theorem putPlaces_end {w : DirSetWriter} (here : w.current.sectorId < 2 ^ 32)
    (large : ¬ (nextPlace size w.current).sectorId < 2 ^ 32)
    (rounds : Nat) : putPlaces size (rounds + 1) w = [w.current] := by
  have stops : (w.nextDirEntryLocation size : ExFat Unit DirSetWriter) () = (.error .panic, ()) := by
    unfold nextDirEntryLocation
    unfold nextPlace at large
    split
    · rename_i full
      rw [if_pos full] at large
      rw [u32, if_neg large]
      rfl
    · rename_i room
      rw [if_neg room] at large
      exact absurd here large
  rw [putPlaces, stops]

/-- The places of a writer are these when each is the next one on the device. -/
theorem putPlaces_eq_iff (places : List Location) :
    ∀ {w : DirSetWriter}, (∀ p ∈ w.current :: places, p.sectorId < 2 ^ 32) →
    (putPlaces size (places.length + 1) w = w.current :: places ↔ (w.current :: places).IsChain fun p q =>
      q = nextPlace size p) := by
  induction places with
  | nil =>
    intro w small
    refine iff_of_true ?_ (List.isChain_singleton _)
    by_cases next : (nextPlace size w.current).sectorId < 2 ^ 32
    · exact putPlaces_next next 0
    · exact putPlaces_end (small _ List.mem_cons_self) next 0
  | cons p places ih =>
    intro w small
    have smallP := small p (List.mem_cons_of_mem _ List.mem_cons_self)
    rw [List.isChain_cons_cons, List.length_cons]
    by_cases next : p = nextPlace size w.current
    · subst next
      have rest := @ih { w with current := nextPlace size w.current } fun q member =>
        small q (List.mem_cons_of_mem _ member)
      rw [putPlaces_next smallP, List.cons_inj_right, rest]
      exact (and_iff_right rfl).symm
    · refine iff_of_false (fun same => ?_) fun chain => next chain.1
      by_cases smallNext : (nextPlace size w.current).sectorId < 2 ^ 32
      · rw [putPlaces_next smallNext, List.cons_inj_right, putPlaces] at same
        exact next (List.cons.inj same).1.symm
      · rw [putPlaces_end (small _ List.mem_cons_self) smallNext] at same
        cases same

end DirSetWriter

namespace Session

open Exec DirSetWriter

variable {size n : Nat}

/-- Where `mark_directory_entry_set_unused` goes on from the end of a sector; nowhere after the last sector of all. -/
def turned (size : Nat) (location : Location) : Option Location :=
  if location.dirEntryOffset = size / rawEntryLen then
    if location.sectorId + 1 < 2 ^ 32 then some ⟨location.sectorId + 1, 0⟩ else none
  else some location

/-- The places that `mark_directory_entry_set_unused` clears, in so many rounds. -/
def clearedPlaces (size : Nat) : Nat → Location → List Location
  | 0, _ => []
  | rounds + 1, location =>
    match turned size location with
    | some place => place :: clearedPlaces size rounds { place with dirEntryOffset := place.dirEntryOffset + 1 }
    | none => []

/-- What a round does to the entry at its place. -/
def clearAt (place : Location) : ExFat (Session size n) Unit := do
  let offset := place.dirEntryOffset * rawEntryLen
  Exec.assert (offset < size)
  let _ ← onCache .data (SlotCache.readMut place.sectorId fun b => b.patch offset [b.byte offset &&& 0x7F])
  insert ⟨.dir, place.sectorId⟩

def clearAll : List Location → ExFat (Session size n) Unit
  | [] => pure ()
  | place :: places => do
    clearAt place
    clearAll places

theorem markEntriesUnused_turned (rounds : Nat) (location : Location) :
    (markEntriesUnused (rounds + 1) location : ExFat (Session size n) Unit) = match turned size location with
      | some place => do
        clearAt place
        markEntriesUnused rounds { place with dirEntryOffset := place.dirEntryOffset + 1 }
      | none => Exec.panic := by
  funext s
  rw [markEntriesUnused, turned]
  by_cases full : location.dirEntryOffset = size / rawEntryLen
  · rw [if_pos full, if_pos full]
    by_cases small : location.sectorId + 1 < 2 ^ 32
    · rw [if_pos small, bind_of_ok (u32_of_lt small s)]
      refine (bind_of_ok (pure_apply _ s)).trans ?_
      dsimp only
      simp only [clearAt, bind_assoc]
    · rw [if_neg small, u32, if_neg small]
      rfl
  · rw [if_neg full, if_neg full]
    refine (bind_of_ok (pure_apply _ s)).trans ?_
    dsimp only
    simp only [clearAt, bind_assoc]

/-- `mark_directory_entry_set_unused` clears the entries at these places, and panics if there are too few of them. -/
theorem markEntriesUnused_eq (rounds : Nat) :
    ∀ location, (markEntriesUnused rounds location : ExFat (Session size n) Unit) = (do
    clearAll (clearedPlaces size rounds location)
    if (clearedPlaces size rounds location).length = rounds then pure () else Exec.panic) := by
  induction rounds with
  | zero => exact fun location => rfl
  | succ rounds ih =>
    intro location
    rw [markEntriesUnused_turned, clearedPlaces]
    cases turned size location with
    | none => rfl
    | some place =>
      dsimp only
      rw [ih, clearAll, bind_assoc]
      simp only [List.length_cons, Nat.add_right_cancel_iff]

theorem turned_next {place : Location} (here : place.sectorId < 2 ^ 32) :
    turned size { place with dirEntryOffset := place.dirEntryOffset + 1 } =
      if (nextPlace size place).sectorId < 2 ^ 32 then some (nextPlace size place) else none := by
  unfold turned nextPlace
  by_cases full : place.dirEntryOffset + 1 = size / rawEntryLen
  · rw [if_pos full, if_pos full]
  · rw [if_neg full, if_neg full, if_pos here]

theorem turned_inside {place : Location} (inside : place.dirEntryOffset < size / rawEntryLen) :
    turned size place = some place :=
  if_neg inside.ne

theorem nextPlace_inside {place : Location} (inside : place.dirEntryOffset < size / rawEntryLen) :
    (nextPlace size place).dirEntryOffset < size / rawEntryLen := by
  unfold nextPlace
  split
  · exact (Nat.zero_le _).trans_lt inside
  · rename_i more
    dsimp only
    omega

/-- A set is cleared where a writer puts one. -/
theorem clearedPlaces_eq (rounds : Nat) : ∀ w : DirSetWriter, w.current.dirEntryOffset < size / rawEntryLen →
    w.current.sectorId < 2 ^ 32 → clearedPlaces size rounds w.current = putPlaces size rounds w := by
  induction rounds with
  | zero => exact fun w _ _ => rfl
  | succ rounds ih =>
    intro w inside here
    rw [clearedPlaces, turned_inside inside]
    dsimp only
    by_cases small : (nextPlace size w.current).sectorId < 2 ^ 32
    · have inside' := nextPlace_inside inside
      rw [putPlaces_next small, ← ih { w with current := nextPlace size w.current } inside' small]
      cases rounds with
      | zero => rfl
      | succ rounds => rw [clearedPlaces, clearedPlaces, turned_next here, if_pos small, turned_inside inside']
    · rw [putPlaces_end here small]
      cases rounds with
      | zero => rfl
      | succ rounds => rw [clearedPlaces, turned_next here, if_neg small]

end Session

namespace DirectoryEntryChain

open Scan Volume Exec

variable {size n : Nat} {home : Nat → CacheKind} {v : Volume size} {cs : List Nat}

/-- The places of the entries that a reader delivers, in so many calls. -/
def nextPlaces : Nat → ExFat (Scan size n) (List Location)
  | 0 => pure []
  | rounds + 1 => do
    match ← next with
    | none => pure []
    | some (_, place) =>
      let places ← nextPlaces rounds
      pure (place :: places)

/-- A reader delivers the entries of the directory one after the other. -/
theorem nextPlaces_run (room : rawEntryLen ≤ size) (layout : Layout size home v.setup) (walk : v.Walk home cs)
    (left : Nat) :
    ∀ {i : Nat} {s : Scan size n}, Follows home v cs i s → s.chain.numEntries = some (s.chain.cursor + left) →
      i + left ≤ (v.dirEntries cs).length → ∃ s', nextPlaces left s =
        (.ok ((((v.dirEntries cs).drop i).take left).map Prod.snd), s') := by
  induction left with
  | zero => exact fun _ _ _ => ⟨_, by rw [List.take_zero]; rfl⟩
  | succ left ih =>
    intro i s follows limit within
    have inside : i < (v.dirEntries cs).length := by omega
    have here := List.getElem?_eq_getElem inside
    have free : s.Free := by
      rw [Free, limit]
      intro full
      have same : s.chain.cursor + (left + 1) = s.chain.cursor := Option.some.inj full
      omega
    obtain ⟨s₁, run₁, follows₁, cursor₁, limit₁⟩ := follows.next room layout walk free here
    obtain ⟨s₂, run₂⟩ := ih follows₁ (by rw [limit₁, limit, cursor₁]; congr 1; omega) (by omega)
    refine ⟨s₂, ?_⟩
    rw [nextPlaces, bind_of_ok run₁]
    dsimp only
    rw [bind_of_ok run₂, List.drop_eq_getElem_cons inside, List.take_succ_cons, List.map_cons]
    rfl

end DirectoryEntryChain

namespace Volume

open DirectoryEntryChain (dirEntriesPerBlock)

variable {size : Nat} {home : Nat → CacheKind} {v : Volume size} {cs : List Nat} {i : Nat}

section Places

variable (room : rawEntryLen ≤ size) (layout : Layout size home v.setup) (walk : v.Walk home cs)

include room layout walk

/-- The places of a directory are places on the device. -/
theorem Walk.place_small {m : Nat} {e : DirSlot} (here : (v.dirEntries cs)[m]? = some e) :
    e.2.sectorId < 2 ^ 32 ∧ e.2.dirEntryOffset < size / rawEntryLen := by
  obtain ⟨_, small, _⟩ := walk.place_data room layout here
  obtain ⟨c, _, rfl, _⟩ := dirEntries_entryAt (clusterSlots_pos room layout) here
  exact ⟨small, Nat.mod_lt _ (Nat.div_pos room (by decide))⟩

/-- A stretch of a directory is unbroken when each entry is at the next place on the device. -/
theorem Walk.unbroken_iff (len : Nat) (within : i + len ≤ (v.dirEntries cs).length) :
    ((((v.dirEntries cs).drop i).take len).map Prod.snd).IsChain (fun p q => q = nextPlace size p) ↔
      v.Unbroken cs i len := by
  have length : ((((v.dirEntries cs).drop i).take len).map Prod.snd).length = len := by
    rw [List.length_map, List.length_take, List.length_drop]
    omega
  rw [List.isChain_iff_getElem]
  constructor
  · intro chain q c above below atQ
    have last := chain ((q + 1) * v.clusterSlots - 1 - i) (by omega)
    simp only [List.getElem_map, List.getElem_take, List.getElem_drop] at last
    have here := List.getElem?_eq_getElem (l := v.dirEntries cs)
      (i := i + ((q + 1) * v.clusterSlots - 1 - i)) (by omega)
    have there :=
      List.getElem?_eq_getElem (l := v.dirEntries cs) (i := i + ((q + 1) * v.clusterSlots - 1 - i) + 1) (by omega)
    exact (walk.place_succ room layout here there).mp last q c (by omega) atQ
  · intro unbroken j below
    simp only [List.getElem_map, List.getElem_take, List.getElem_drop]
    have here := List.getElem?_eq_getElem (l := v.dirEntries cs) (i := i + j) (by omega)
    have there := List.getElem?_eq_getElem (l := v.dirEntries cs) (i := i + j + 1) (by omega)
    exact (walk.place_succ room layout here there).mpr fun q c boundary atQ => unbroken q c (by omega) (by omega) atQ

end Places

end Volume

namespace FileSystem

open DirectoryEntryChain DirSetWriter Session Volume

variable {size n : Nat} {home : Nat → CacheKind} {fs : FileSystem size n} {cs : List Nat} {i : Nat}

/-- The places where a reader comes to the entries of the set of a file. -/
def setPlaces (details : FileDetails) : ExFat (FileSystem size n) (List Location) := do
  let chain ← newFromFileDetails details (← get).fs
  scanning chain (nextPlaces (details.secondaryCount + 1))

/-- The reader of a set comes to the entries of the directory from its place on. -/
theorem setPlaces_run (room : rawEntryLen ≤ size) (layout : Layout size home fs.setup) (sound : fs.Sound home)
    (walk : (fs.volume home).Walk home cs) {e : DirSlot} (here : ((fs.volume home).dirEntries cs)[i]? = some e)
    {details : FileDetails}
    (location : details.location = e.2)
    (within : i + (details.secondaryCount + 1) ≤ ((fs.volume home).dirEntries cs).length) :
    ∃ fs', setPlaces details fs =
      (.ok (((((fs.volume home).dirEntries cs).drop i).take (details.secondaryCount + 1)).map Prod.snd), fs') := by
  have some_ := clusterSlots_pos (v := fs.volume home) room layout
  obtain ⟨c, member, rfl, cluster⟩ := dirEntries_entryAt some_ here
  have inside := Nat.mod_lt i some_
  obtain ⟨chain, opened, stands, limit⟩ :=
    newFromFileDetails_stands room layout (walk.inHeap c member).1 inside sound rfl location fs
  have follows : Scan.Follows home (fs.volume home) cs i ⟨fs, chain⟩ :=
    ⟨stands.toShows, chain, .refl chain, i / (fs.volume home).clusterSlots, c,
      i % (fs.volume home).clusterSlots, cluster,
      (Nat.div_add_mod' i _).symm, inside.le, stands.place⟩
  obtain ⟨t, run⟩ := nextPlaces_run room layout walk (details.secondaryCount + 1) follows limit within
  refine ⟨t.fs, ?_⟩
  rw [setPlaces, Exec.bind_of_ok (Exec.get_apply fs), Exec.bind_of_ok opened]
  exact scanning_of_run run

/-- The reader, the writers and `mark_directory_entry_set_unused` come to the same places,
exactly when the set is unbroken. -/
theorem set_places_iff (room : rawEntryLen ≤ size) (layout : Layout size home fs.setup) (sound : fs.Sound home)
    (walk : (fs.volume home).Walk home cs) {e : DirSlot} (here : ((fs.volume home).dirEntries cs)[i]? = some e)
    {details : FileDetails}
    (location : details.location = e.2)
    (within : i + (details.secondaryCount + 1) ≤ ((fs.volume home).dirEntries cs).length) :
    ∃ places fs', setPlaces details fs = (.ok places, fs') ∧ places.length = details.secondaryCount + 1 ∧
      ((putPlaces size (details.secondaryCount + 1) (.new details.location) = places ∧
          clearedPlaces size (details.secondaryCount + 1) details.location = places) ↔
        (fs.volume home).Unbroken cs i (details.secondaryCount + 1)) := by
  obtain ⟨fs', run⟩ := setPlaces_run room layout sound walk here location within
  refine ⟨_, fs', run, by rw [List.length_map, List.length_take, List.length_drop]; omega, ?_⟩
  obtain ⟨inside, first⟩ := List.getElem?_eq_some_iff.mp here
  have start : (((fs.volume home).dirEntries cs).drop i).take (details.secondaryCount + 1) =
      e :: (((fs.volume home).dirEntries cs).drop (i + 1)).take details.secondaryCount := by
    rw [List.drop_eq_getElem_cons inside, List.take_succ_cons, first]
  have rest : (((((fs.volume home).dirEntries cs).drop (i + 1)).take details.secondaryCount).map Prod.snd).length =
      details.secondaryCount := by
    rw [List.length_map, List.length_take, List.length_drop]
    omega
  have small : ∀ p ∈
    e.2 :: ((((fs.volume home).dirEntries cs).drop (i + 1)).take details.secondaryCount).map Prod.snd,
      p.sectorId < 2 ^ 32 := by
    intro p member
    have whole : p ∈ ((fs.volume home).dirEntries cs).map Prod.snd := by
      rcases List.mem_cons.mp member with rfl | later
      · exact List.mem_map_of_mem (List.mem_of_getElem? here)
      · exact ((List.take_sublist _ _).trans (List.drop_sublist _ _)).map Prod.snd |>.subset later
    obtain ⟨slot, there, rfl⟩ := List.mem_map.mp whole
    obtain ⟨m, number⟩ := List.mem_iff_getElem?.mp there
    exact (walk.place_small room layout number).1
  have bounds := walk.place_small room layout here
  have cleared := clearedPlaces_eq (details.secondaryCount + 1) (.new e.2) bounds.2 bounds.1
  have written := @putPlaces_eq_iff size _ (.new e.2) small
  rw [rest] at written
  rw [← walk.unbroken_iff room layout _ within, start, List.map_cons, location]
  exact Iff.trans ⟨And.left, fun puts => ⟨puts, cleared.trans puts⟩⟩ written

open File FileSession

/-- A directory whose clusters 3 and 5 are linked in the FAT, with a set that begins in the last
entry of the first one. -/
def forkedVolume : FileSystem 512 1 :=
  { linkedVolume with
    dev := ⟨fun s =>
      if s = 101 then entrySector (List.replicate 15 (zeroEntry.patch 0 [0x05]) ++ strandedSet.take 1)
      else if s = 103 then entrySector (strandedSet.drop 1)
      else linkedVolume.dev.blocks s, [], []⟩ }

def forkedDetails : FileDetails := { strandedDetails with location := ⟨101, 15⟩ }

theorem forkedVolume_walk : (forkedVolume.volume smallHome).Walk smallHome [3, 5] where
  linked := .cons_cons (by decide +kernel) (.singleton _)
  distinct := by decide
  inHeap c member := by rcases List.mem_pair.mp member with rfl | rfl <;> exact ⟨by decide, by decide⟩
  data c _ := pairVolume_data c

theorem forkedVolume_sound : forkedVolume.Sound smallHome := sound_of_new _ rfl fun k => by cases k <;> rfl

theorem forkedVolume_length : ((forkedVolume.volume smallHome).dirEntries [3, 5]).length = 32 := length_dirEntries _ _

theorem forkedVolume_place :
    (((forkedVolume.volume smallHome).dirEntries [3, 5])[15]?).map Prod.snd = some forkedDetails.location := by
  decide +kernel

theorem set_places_iff_forked : ∃ places fs', setPlaces forkedDetails forkedVolume = (.ok places, fs') ∧
    places.length = forkedDetails.secondaryCount + 1 ∧
    ((putPlaces 512 (forkedDetails.secondaryCount + 1) (.new forkedDetails.location) = places ∧
        clearedPlaces 512 (forkedDetails.secondaryCount + 1) forkedDetails.location = places) ↔
      (forkedVolume.volume smallHome).Unbroken [3, 5] 15 (forkedDetails.secondaryCount + 1)) := by
  obtain ⟨e, here, place⟩ := Option.map_eq_some_iff.mp forkedVolume_place
  have within : 15 + (forkedDetails.secondaryCount + 1) ≤
      ((forkedVolume.volume smallHome).dirEntries [3, 5]).length := by
    rw [forkedVolume_length]
    decide
  have layout : Layout 512 smallHome forkedVolume.setup := smallVolume_layout.of_same rfl rfl rfl rfl
  have room : rawEntryLen ≤ 512 := by decide
  exact set_places_iff room layout forkedVolume_sound forkedVolume_walk here place.symm within

/-- The writers go on in cluster 4, the reader in cluster 5. -/
theorem set_places_part : (forkedVolume.volume smallHome).Walk smallHome [3, 5] ∧
    (((forkedVolume.volume smallHome).dirEntries [3, 5])[15]?).map Prod.snd = some forkedDetails.location ∧
    ∃ places, (setPlaces forkedDetails forkedVolume).1 = .ok places ∧
      ¬ (putPlaces 512 (forkedDetails.secondaryCount + 1) (.new forkedDetails.location) = places ∧
        clearedPlaces 512 (forkedDetails.secondaryCount + 1) forkedDetails.location = places) := by
  refine ⟨forkedVolume_walk, forkedVolume_place, [⟨101, 15⟩, ⟨103, 0⟩, ⟨103, 1⟩], by decide +kernel, fun same => ?_⟩
  have written : putPlaces 512 3 (.new ⟨101, 15⟩) ≠ [⟨101, 15⟩, ⟨103, 0⟩, ⟨103, 1⟩] := by decide
  exact written same.1

end FileSystem

end ExFatSlim
