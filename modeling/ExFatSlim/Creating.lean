import ExFatSlim.FreeRuns

namespace ExFatSlim

open DirectoryEntryChain (dirEntriesPerBlock)

namespace Volume

open Session (nextPlace iterate_nextPlace)

variable {size : Nat} {home : Nat → CacheKind} {v v' : Volume size} {c d i len : Nat} {cs ds : List Nat}
  {place : Location}

/-- The way down through the directories with these names. -/
inductive Descends (home : Nat → CacheKind) (v : Volume size) : List (List Char) → Nat → Nat → Prop
  | here (c : Nat) : Descends home v [] c c
  | into {c d : Nat} {cs : List Nat} {part : List Char} {rest : List (List Char)} {details : FileDetails} :
    v.Directory home c cs →
      v.lookup cs part (some attrDirectory) = .ok (some details) → Descends home v rest details.firstCluster d →
      Descends home v (part :: rest) c d

/-- Where the next search for clusters starts does not matter for a directory. -/
theorem Directory.searchAt (dir : v.Directory home c cs) (k : Nat) : (v.searchAt k).Directory home c cs :=
  ⟨dir.head, ⟨dir.threads.linked, dir.threads.ended⟩, dir.distinct, dir.inHeap, dir.used, dir.data⟩

theorem Descends.searchAt {parts : List (List Char)} (descends : v.Descends home parts c d) (k : Nat) :
    (v.searchAt k).Descends home parts c d := by
  induction descends with
  | here c => exact .here c
  | into dir found _ ih =>
    exact .into (dir.searchAt k) found ih

/-- The entries from number `i` on, at `place`, are the first run of `len` unused ones, and the
writer's places are theirs. -/
structure FirstRoom (v : Volume size) (ds : List Nat) (len i : Nat) (place : Location) : Prop where
  run : EmptyRun ((v.dirEntries ds).map Prod.fst) i len
  least : ∀ j < i, ¬ EmptyRun ((v.dirEntries ds).map Prod.fst) j len
  here : ∃ raw, (v.dirEntries ds)[i]? = some (raw, place)
  unbroken : v.Unbroken ds i len

/-- The directory has these entries from number `i` on, the first of them at `place`. -/
def HasSet (v : Volume size) (ds : List Nat) (i : Nat) (place : Location) (raws : List RawDirEntry) : Prop :=
  ∀ j raw, raws[j]? = some raw → (v.dirEntries ds)[i + j]? = some (raw, (nextPlace size)^[j] place)

theorem HasSet.of_sectors {raws : List RawDirEntry} (set : v.HasSet ds i place raws) (some_ : 0 < v.clusterSlots)
    (details : v'.setup.details = v.setup.details)
    (same : ∀ e ∈ v.dirEntries ds, v'.sectors e.2.sectorId = v.sectors e.2.sectorId) :
    v'.HasSet ds i place raws := by
  intro j raw here
  have there := set j raw here
  have old := entryAt_of_dirEntries some_ there
  dsimp only at old
  have entry : v'.entryAt ((nextPlace size)^[j] place) = raw := by
    rw [← old, entryAt, entryAt, same _ (List.mem_of_getElem? there)]
  rw [dirEntries_of_details details, List.getElem?_map, there, Option.map_some, entry]

section Places

variable (room : rawEntryLen ≤ size) (layout : Layout size home v.setup) (walk : v.Walk home ds)

include room layout walk

/-- The places of a writer that starts at the room it found. -/
theorem FirstRoom.places (spot : v.FirstRoom ds len i place) : ∃ c k, place = v.slotLocation c k ∧
    (∀ j < len, ∃ raw, (v.dirEntries ds)[i + j]? = some (raw, v.slotLocation c (k + j))) ∧
    (((nextPlace size)^[len] place).sectorId < 2 ^ 32 → v.Stretch home c (k + len)) := by
  have slots := clusterSlots_pos room layout
  obtain ⟨raw, here⟩ := spot.here
  obtain ⟨c, member, same, _⟩ := dirEntries_entryAt slots here
  have place_ : place = v.slotLocation c (i % v.clusterSlots) := (Prod.mk.inj same).2
  have numbered : ∀ j < len, ∃ raw, (v.dirEntries ds)[i + j]? =
      some (raw, v.slotLocation c (i % v.clusterSlots + j)) := by
    intro j below
    obtain ⟨raw', there⟩ := walk.placed_of_unbroken room layout here spot.run spot.unbroken j below
    rw [place_, iterate_nextPlace room] at there
    exact ⟨raw', there⟩
  have before : ∀ k < i % v.clusterSlots, home (v.slotLocation c k).sectorId = .data ∧
      (v.slotLocation c k).sectorId < 2 ^ 32 := by
    intro k below
    have small := Nat.mod_lt i slots
    have inside : k / dirEntriesPerBlock size < v.setup.details.sectorsPerCluster :=
      (Nat.div_lt_iff_lt_mul (Nat.div_pos room (by decide))).mpr (below.trans small)
    exact ⟨walk.data c member _ inside, dataSector_lt layout (walk.inHeap c member) inside⟩
  have all : ∀ k < i % v.clusterSlots + len, home (v.slotLocation c k).sectorId = .data ∧
      (v.slotLocation c k).sectorId < 2 ^ 32 := by
    intro k below
    by_cases early : k < i % v.clusterSlots
    · exact before k early
    · obtain ⟨_, there⟩ := numbered (k - i % v.clusterSlots) (by omega)
      obtain ⟨data, bound, _⟩ := walk.place_data room layout there
      rw [Nat.add_sub_cancel' (Nat.not_lt.mp early)] at data bound
      exact ⟨data, bound⟩
  refine ⟨c, i % v.clusterSlots, place_, numbered, fun last =>
    ⟨room, fun k below => (all k below).1, fun k upTo => ?_⟩⟩
  rcases Nat.eq_or_lt_of_le upTo with rfl | below
  · rw [place_, iterate_nextPlace room] at last
    exact last
  · exact (all k below).2

end Places

end Volume

namespace Session

open Volume

variable {size n : Nat} {home : Nat → CacheKind} {v : Volume size} {c d fuel : Nat}

/-- `get_or_create_directory` goes down where every directory exists. -/
theorem getOrCreateIn_leads (room : rawEntryLen ≤ size) (layout : Layout size home v.setup)
    (enough : v.mostSlots < fuel)
    {parts : List (List Char)} (descends : v.Descends home parts c d) :
    ∀ {s : Session size n}, s.fs.Sound home → s.fs.volume home = v →
    Session.Leads home (getOrCreateIn fuel parts c) s (.ok d) v := by
  induction descends with
  | here c => exact fun sound shown => .of_run rfl sound shown
  | @into _ _ _ part _ _ dir found _ ih =>
    intro s sound shown
    subst shown
    have look := leads_onFs (FileSystem.lookupIn_leads room sound layout dir enough part (some attrDirectory))
    rw [found] at look
    rw [getOrCreateIn]
    exact look.bind fun s' sound' shown' => ih sound' shown'

end Session

namespace DirSetWriter

open Session (nextPlace)

variable {size n : Nat} {s s' : Session size n} {w w' : DirSetWriter}

/-- A writer that goes on has a sector number for its next place. -/
theorem addNoWrite_ok {σ : Type} {t t' : σ} {raw : RawDirEntry} {isFileDir : Bool}
    (small : w.current.sectorId < 2 ^ 32)
    (run : (w.addNoWrite size raw isFileDir : ExFat σ DirSetWriter) t = (.ok w', t')) :
    w'.current = nextPlace size w.current ∧ w'.current.sectorId < 2 ^ 32 := by
  obtain ⟨w₁, t₁, moved, rest⟩ := Exec.bind_eq_ok.mp run
  cases rest
  unfold nextDirEntryLocation at moved
  unfold nextPlace
  split at moved
  · rename_i full
    obtain ⟨sector, t₂, counted, rest⟩ := Exec.bind_eq_ok.mp moved
    obtain ⟨bound, rfl, rfl⟩ := u32_ok counted
    cases rest
    rw [if_pos full]
    exact ⟨rfl, bound⟩
  · rename_i more
    cases moved
    rw [if_neg more]
    exact ⟨rfl, small⟩

theorem add_ok {raw : RawDirEntry} {isFileDir : Bool} (small : w.current.sectorId < 2 ^ 32)
    (run : w.add raw isFileDir s = (.ok w', s')) :
    w'.current = nextPlace size w.current ∧ w'.current.sectorId < 2 ^ 32 := by
  obtain ⟨_, _, _, run⟩ := Exec.bind_eq_ok.mp run
  obtain ⟨_, _, _, run⟩ := Exec.bind_eq_ok.mp run
  obtain ⟨_, _, _, run⟩ := Exec.bind_eq_ok.mp run
  exact addNoWrite_ok small run

theorem addNameEntries_ok (rounds : Nat) : ∀ {units : List Nat} {w w' : DirSetWriter} {s s' : Session size n},
    w.current.sectorId < 2 ^ 32 → Session.addNameEntries rounds units w s = (.ok w', s') →
    w'.current = (nextPlace size)^[(nameRaws rounds units).length] w.current ∧ w'.current.sectorId < 2 ^ 32 := by
  induction rounds with
  | zero =>
    intro units w w' s s' small run
    cases run
    exact ⟨rfl, small⟩
  | succ rounds ih =>
    intro units w w' s s' small run
    rw [Session.addNameEntries] at run
    rw [nameRaws]
    split at run
    · rename_i none_
      cases run
      rw [if_pos none_]
      exact ⟨rfl, small⟩
    · rename_i some_
      obtain ⟨w₁, s₁, first, rest⟩ := Exec.bind_eq_ok.mp run
      obtain ⟨place, bound⟩ := add_ok small first
      obtain ⟨places, bound'⟩ := ih bound rest
      rw [if_neg some_, List.length_cons, Function.iterate_succ_apply, ← place]
      exact ⟨places, bound'⟩

end DirSetWriter

namespace NewEntry

open Volume
open Session (nextPlace)

variable {size n : Nat} {home : Nat → CacheKind} {s s' : Session size n} {e : NewEntry} {d i fuel : Nat}
  {ds : List Nat} {place : Location}

/-- Where an entry set was written there is a sector number for what follows it. -/
theorem create_ok {details : FileDetails} (short : e.units.length ≤ 255)
    {nameHash : Nat}
    (accepted : (encodeUtf16UpcaseAndHash e.name s.fs.upcaseTable : ExFat (Session size n) (Nat × Nat)) s =
      (.ok (nameHash, e.units.length), s))
    (found : (FileSystem.findEmptyDirEntrySet fuel d e.setLen s.fs).1 = .ok place) (small : place.sectorId < 2 ^ 32)
    (run : e.create fuel d s = (.ok details, s')) : ((nextPlace size)^[e.setLen] place).sectorId < 2 ^ 32 := by
  obtain ⟨setLen, few⟩ := setLen_bounds short
  rw [create, Session.createFileDirEntryAt, Exec.bind_of_ok (Exec.get_apply s), Exec.bind_of_ok accepted] at run
  obtain ⟨location, s₁, search, run⟩ := Exec.bind_eq_ok.mp run
  have same : location = place := by
    have result : (Session.onFs (FileSystem.findEmptyDirEntrySet fuel d e.setLen) s).1 = .ok place := found
    rw [show Session.onFs (FileSystem.findEmptyDirEntrySet fuel d e.setLen) s =
      (.ok location, s₁) from search] at result
    exact Except.ok.inj result
  subst same
  obtain ⟨_, _, _, run⟩ := Exec.bind_eq_ok.mp run
  obtain ⟨_, _, _, run⟩ := Exec.bind_eq_ok.mp run
  obtain ⟨w₁, _, first, run⟩ := Exec.bind_eq_ok.mp run
  obtain ⟨place₁, bound₁⟩ := DirSetWriter.add_ok small first
  obtain ⟨w₂, _, second, run⟩ := Exec.bind_eq_ok.mp run
  obtain ⟨place₂, bound₂⟩ := DirSetWriter.add_ok bound₁ second
  obtain ⟨w₃, _, names, _⟩ := Exec.bind_eq_ok.mp run
  obtain ⟨place₃, bound₃⟩ := DirSetWriter.addNameEntries_ok e.units.length bound₂ names
  rw [setLen, Nat.add_comm, Function.iterate_add_apply]
  rw [place₃, place₂, place₁] at bound₃
  exact bound₃

/-- Creating an entry set in the first room for it. -/
theorem create_first (room : rawEntryLen ≤ size) (layout : Layout size home s.fs.setup) (sound : s.fs.Sound home)
    (dir : (s.fs.volume home).Directory home d ds) (clocked : s.fs.setup.Clocked) (fits : e.Fits)
    {nameHash count : Nat}
    (accepted : hashedName s.fs.upcaseTable e.name = .ok (nameHash, count))
    (spot : (s.fs.volume home).FirstRoom ds e.setLen i place)
    (enough : (s.fs.volume home).mostSlots < fuel) :
    (((nextPlace size)^[e.setLen] place).sectorId < 2 ^ 32 ∧ ∃ c k, place = (s.fs.volume home).slotLocation c k ∧
      (∀ j < e.setLen, ∃ raw, ((s.fs.volume home).dirEntries ds)[i + j]? =
        some (raw, (s.fs.volume home).slotLocation c (k + j))) ∧
      Session.Leads home (e.create fuel d) s (.ok (e.details s.fs.setup.now place))
        (putEntries c k (e.raws nameHash s.fs.setup.now) (s.fs.volume home).tick)) ∨
    ¬ ((nextPlace size)^[e.setLen] place).sectorId < 2 ^ 32 ∧ ∀ details s', e.create fuel d s ≠
      (.ok details, s') := by
  have walk := dir.walk
  have some_ : 0 < e.setLen := by
    have number := (setLen_bounds fits.short).1
    omega
  have accepted' : (encodeUtf16UpcaseAndHash e.name s.fs.upcaseTable : ExFat (Session size n) (Nat × Nat)) s =
      (.ok (nameHash, count), s) := by rw [encodeUtf16UpcaseAndHash_run, accepted]
  obtain ⟨_, rfl, _, _⟩ := encodeUtf16UpcaseAndHash_ok accepted'
  obtain ⟨raw, here⟩ := spot.here
  have search := FileSystem.findEmptyDirEntrySet_first room layout sound dir some_ enough spot.run spot.least here
  by_cases last : ((nextPlace size)^[e.setLen] place).sectorId < 2 ^ 32
  · obtain ⟨c, k, rfl, numbered, stretch⟩ := spot.places room layout walk
    exact Or.inl ⟨last, c, k, rfl, numbered, create_leads (stretch last) clocked fits.short accepted' search le_rfl⟩
  · refine Or.inr ⟨last, fun details s' run => last ?_⟩
    obtain ⟨_, found, _⟩ := search
    exact create_ok fits.short accepted' (congrArg Prod.fst found) (walk.place_data room layout here).2.1 run

end NewEntry

end ExFatSlim
