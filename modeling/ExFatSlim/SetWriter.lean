import ExFatSlim.EntryCodec
import ExFatSlim.Scanning

namespace ExFatSlim

open DirectoryEntryChain (dirEntriesPerBlock)

namespace Volume

variable {size : Nat} {home : Nat → CacheKind} {v : Volume size} {c : Nat}

/-- A cluster that the entries of a directory can be read from and written to. -/
structure DirCluster (home : Nat → CacheKind) (v : Volume size) (c : Nat) : Prop where
  room : rawEntryLen ≤ size
  layout : Layout size home v.setup
  inHeap : v.InHeap c
  data : v.IsData home c
  past : v.dataSector c v.setup.details.sectorsPerCluster < 2 ^ 32

/-- The volume with another entry at a place. -/
def putEntry (v : Volume size) (place : Location) (raw : RawDirEntry) : Volume size :=
  v.store place.sectorId
    ((v.sectors place.sectorId).patch (place.dirEntryOffset * rawEntryLen) (raw.slice 0 rawEntryLen))

/-- The volume with other entries from the entry with number `k` of a cluster on. -/
def putEntries (c : Nat) : Nat → List RawDirEntry → Volume size → Volume size
  | _, [], v => v
  | k, raw :: rest, v => putEntries c (k + 1) rest (v.putEntry (v.slotLocation c k) raw)

@[simp] theorem putEntry_setup (v : Volume size) (place : Location) (raw : RawDirEntry) :
    (v.putEntry place raw).setup = v.setup := rfl

@[simp] theorem putEntry_slotLocation (v : Volume size) (place : Location) (raw : RawDirEntry) (c k : Nat) :
    (v.putEntry place raw).slotLocation c k = v.slotLocation c k := rfl

@[simp] theorem putEntries_setup (raws : List RawDirEntry) : ∀ (k : Nat) (v : Volume size),
    (putEntries c k raws v).setup = v.setup := by
  induction raws with
  | nil => intro k v; rfl
  | cons raw raws ih => intro k v; exact ih (k + 1) _

theorem slotLocation_of_setup {v' : Volume size} (same : v'.setup = v.setup) (c k : Nat) :
    v'.slotLocation c k = v.slotLocation c k := by
  rw [slotLocation, slotLocation, dataSector, dataSector, same]

theorem DirCluster.of_setup {v' : Volume size} (dir : v.DirCluster home c) (same : v'.setup = v.setup) :
    v'.DirCluster home c := by
  have sector : ∀ i, v'.dataSector c i = v.dataSector c i := fun i => by rw [dataSector, dataSector, same]
  refine ⟨dir.room, same ▸ dir.layout, ?_, fun i inside => ?_, ?_⟩
  · rw [InHeap, endCluster, same]
    exact dir.inHeap
  · rw [sector]
    exact dir.data i (by rwa [same] at inside)
  · rw [sector, same]
    exact dir.past

section Places

variable (dir : v.DirCluster home c)

include dir

theorem DirCluster.entries_pos : 0 < dirEntriesPerBlock size := Nat.div_pos dir.room (by decide)

theorem DirCluster.sector_lt {k : Nat} (inside : k < v.clusterSlots) :
    k / dirEntriesPerBlock size < v.setup.details.sectorsPerCluster :=
  (Nat.div_lt_iff_lt_mul dir.entries_pos).mpr inside

theorem DirCluster.home_eq {k : Nat} (inside : k < v.clusterSlots) : home (v.slotLocation c k).sectorId = .data :=
  dir.data _ (dir.sector_lt inside)

theorem DirCluster.sector_bound {k : Nat} (within : k ≤ v.clusterSlots) : (v.slotLocation c k).sectorId < 2 ^ 32 := by
  have past := dir.past
  have reach : k / dirEntriesPerBlock size ≤ v.setup.details.sectorsPerCluster := by
    refine Nat.div_le_of_le_mul ?_
    rw [Nat.mul_comm]
    exact within
  simp only [slotLocation, dataSector] at past ⊢
  omega

end Places

theorem slotLocation_inj {j k : Nat} (same : v.slotLocation c j = v.slotLocation c k) : j = k := by
  obtain ⟨sector, offset⟩ := Location.mk.inj same
  have quotient : j / dirEntriesPerBlock size = k / dirEntriesPerBlock size := Nat.add_left_cancel sector
  rw [← Nat.div_add_mod j (dirEntriesPerBlock size), ← Nat.div_add_mod k (dirEntriesPerBlock size), quotient, offset]

section Room

variable (room : rawEntryLen ≤ size)

include room

/-- An entry lies within its sector. -/
theorem slot_fits (v : Volume size) (c k : Nat) :
    (v.slotLocation c k).dirEntryOffset * rawEntryLen + rawEntryLen ≤ size := by
  have small := Nat.mod_lt k (Nat.div_pos room (by decide) : 0 < dirEntriesPerBlock size)
  have whole := Nat.div_mul_le_self size rawEntryLen
  have reach : (k % dirEntriesPerBlock size + 1) * rawEntryLen ≤ size / rawEntryLen * rawEntryLen :=
    Nat.mul_le_mul_right _ small
  rw [Nat.succ_mul] at reach
  exact reach.trans whole

/-- The place after an entry, as a writer computes it. -/
theorem slotLocation_succ (v : Volume size) (c k : Nat) : v.slotLocation c (k + 1) =
    if (v.slotLocation c k).dirEntryOffset + 1 = dirEntriesPerBlock size then ⟨(v.slotLocation c k).sectorId + 1, 0⟩
    else ⟨(v.slotLocation c k).sectorId, (v.slotLocation c k).dirEntryOffset + 1⟩ := by
  have some_ : 0 < dirEntriesPerBlock size := Nat.div_pos room (by decide)
  have small := Nat.mod_lt k some_
  unfold slotLocation
  dsimp only
  split
  · rename_i full
    obtain ⟨quotient, rest⟩ := succ_div_mod_full full
    rw [quotient, rest]
    rfl
  · rename_i more
    obtain ⟨quotient, rest⟩ := succ_div_mod_inside (q := k) (e := dirEntriesPerBlock size) (by omega)
    rw [quotient, rest]

end Room

/-- Entries one after the other on the device, from the start of a cluster on, that a writer can be used on. -/
structure Stretch (home : Nat → CacheKind) (v : Volume size) (c slots : Nat) : Prop where
  room : rawEntryLen ≤ size
  data : ∀ k < slots, home (v.slotLocation c k).sectorId = .data
  bound : ∀ k ≤ slots, (v.slotLocation c k).sectorId < 2 ^ 32

theorem DirCluster.stretch (dir : v.DirCluster home c) : v.Stretch home c v.clusterSlots :=
  ⟨dir.room, fun _ inside => dir.home_eq inside, fun _ within => dir.sector_bound within⟩

theorem Stretch.of_setup {v' : Volume size} {slots : Nat} (stretch : v.Stretch home c slots)
    (same : v'.setup = v.setup) :
    v'.Stretch home c slots := by
  have place := slotLocation_of_setup same c
  refine ⟨stretch.room, fun k inside => ?_, fun k within => ?_⟩
  · rw [place]
    exact stretch.data k inside
  · rw [place]
    exact stretch.bound k within

theorem entryAt_putEntry_self (v : Volume size) {place : Location}
    (fits : place.dirEntryOffset * rawEntryLen + rawEntryLen ≤ size)
    (raw : RawDirEntry) : (v.putEntry place raw).entryAt place = raw := by
  funext i
  have inside : i.val < (raw.slice 0 rawEntryLen).length := by simp
  have bound := i.isLt
  rw [entryAt, putEntry, store_sectors_self, Block.chunk, Block.byte_patch_inside _ (by omega) inside]
  simp [Block.slice, Block.byte]

theorem entryAt_putEntry_ne (v : Volume size) {place other : Location} (apart : other ≠ place) (raw : RawDirEntry) :
    (v.putEntry place raw).entryAt other = v.entryAt other := by
  funext i
  have bound := i.isLt
  rw [entryAt, entryAt, putEntry]
  by_cases sector : other.sectorId = place.sectorId
  · have offset : other.dirEntryOffset ≠ place.dirEntryOffset :=
      fun same => apart (by cases other; cases place; simp_all)
    rw [sector, store_sectors_self, Block.chunk, Block.chunk]
    apply Block.byte_patch_outside
    rw [Block.length_slice]
    rcases Nat.lt_or_gt_of_ne offset with before | after
    · have far := Nat.mul_le_mul_right rawEntryLen before
      rw [Nat.succ_mul] at far
      omega
    · have far := Nat.mul_le_mul_right rawEntryLen after
      rw [Nat.succ_mul] at far
      omega
  · rw [store_sectors_ne _ sector]

/-- What is read at an entry after others were put there. -/
theorem entryAt_putEntries (room : rawEntryLen ≤ size) (raws : List RawDirEntry) : ∀ {k j : Nat} {v : Volume size},
    (putEntries c k raws v).entryAt (v.slotLocation c j) =
      if k ≤ j then (raws[j - k]?).getD (v.entryAt (v.slotLocation c j)) else v.entryAt (v.slotLocation c j) := by
  induction raws with
  | nil =>
    intro k j v
    simp [putEntries]
  | cons raw raws ih =>
    intro k j v
    have rest := @ih (k + 1) j (v.putEntry (v.slotLocation c k) raw)
    rw [putEntry_slotLocation] at rest
    rw [putEntries, rest]
    rcases Nat.lt_trichotomy j k with before | rfl | after
    · have apart : v.slotLocation c j ≠ v.slotLocation c k := fun same => by have := slotLocation_inj same; omega
      rw [if_neg (by omega), if_neg (by omega), entryAt_putEntry_ne v apart]
    · rw [if_neg (by omega), if_pos le_rfl, entryAt_putEntry_self v (slot_fits room v c j), Nat.sub_self]
      rfl
    · have apart : v.slotLocation c j ≠ v.slotLocation c k := fun same => by have := slotLocation_inj same; omega
      rw [if_pos (by omega), if_pos (by omega), entryAt_putEntry_ne v apart,
        show j - k = (j - (k + 1)) + 1 by omega, List.getElem?_cons_succ]

/-- Entries elsewhere stay. -/
theorem entryAt_putEntries_ne (raws : List RawDirEntry) {place : Location} : ∀ {k : Nat} {v : Volume size},
    (∀ j < raws.length, place ≠ v.slotLocation c (k + j)) → (putEntries c k raws v).entryAt place =
      v.entryAt place := by
  induction raws with
  | nil => exact fun _ => rfl
  | cons raw raws ih =>
    intro k v outside
    have first : place ≠ v.slotLocation c k := outside 0 (Nat.succ_pos _)
    rw [putEntries, ih fun j below => ?_, entryAt_putEntry_ne v first]
    rw [putEntry_slotLocation, Nat.add_right_comm]
    exact outside (j + 1) (Nat.succ_lt_succ below)

theorem putEntry_putEntry (v : Volume size) (place : Location) (old raw : RawDirEntry) :
    (v.putEntry place old).putEntry place raw = v.putEntry place raw := by
  have content : ((v.putEntry place old).sectors place.sectorId).patch (place.dirEntryOffset * rawEntryLen)
      (raw.slice 0 rawEntryLen) =
      (v.sectors place.sectorId).patch (place.dirEntryOffset * rawEntryLen) (raw.slice 0 rawEntryLen) := by
    rw [putEntry, store_sectors_self, Block.patch_patch_same _ _ (by simp)]
  rw [putEntry, content]
  simp only [putEntry, store, Function.update_idem]

theorem putEntry_comm (v : Volume size) {place other : Location} (apart : other ≠ place) (raw raw' : RawDirEntry) :
    (v.putEntry place raw).putEntry other raw' = (v.putEntry other raw').putEntry place raw := by
  by_cases sector : other.sectorId = place.sectorId
  · have offset : other.dirEntryOffset ≠ place.dirEntryOffset :=
      fun same => apart (by cases other; cases place; simp_all)
    have disjoint : place.dirEntryOffset * rawEntryLen + (raw.slice 0 rawEntryLen).length ≤
      other.dirEntryOffset * rawEntryLen ∨
        other.dirEntryOffset * rawEntryLen + (raw'.slice 0 rawEntryLen).length ≤
          place.dirEntryOffset * rawEntryLen := by
      rw [Block.length_slice, Block.length_slice, ← Nat.succ_mul, ← Nat.succ_mul]
      rcases Nat.lt_or_gt_of_ne offset with before | after
      · exact Or.inr (Nat.mul_le_mul_right _ before)
      · exact Or.inl (Nat.mul_le_mul_right _ after)
    simp only [putEntry, sector, store_sectors_self, Block.patch_comm _ disjoint]
    simp only [store, Function.update_idem]
  · simp only [putEntry, store, Function.update_of_ne sector, Function.update_of_ne (Ne.symm sector),
      Function.update_comm (Ne.symm sector)]

/-- The first of a run of entries may be put last. -/
theorem putEntry_putEntries (raws : List RawDirEntry) : ∀ {k j : Nat} {v : Volume size} {raw : RawDirEntry},
    k < j → (putEntries c j raws v).putEntry (v.slotLocation c k) raw =
      putEntries c j raws (v.putEntry (v.slotLocation c k) raw) := by
  induction raws with
  | nil => intro k j v raw _; rfl
  | cons next raws ih =>
    intro k j v raw before
    have apart : v.slotLocation c k ≠ v.slotLocation c j := fun same => by have := slotLocation_inj same; omega
    have rest : (putEntries c (j + 1) raws (v.putEntry (v.slotLocation c j) next)).putEntry
      (v.slotLocation c k) raw = _ :=
      ih (Nat.lt_succ_of_lt before)
    rw [putEntry_slotLocation] at rest
    rw [putEntries, putEntries, rest, putEntry_comm v apart, putEntry_slotLocation]

end Volume

namespace DirSetWriter

open Volume

variable {size n : Nat} {home : Nat → CacheKind} {c k slots : Nat} {s : Session size n}

theorem nextDirEntryLocation_run {σ : Type} {v : Volume size} (stretch : v.Stretch home c slots) {w : DirSetWriter}
    (inside : k < slots) (here : w.current = v.slotLocation c k) (t : σ) :
    (w.nextDirEntryLocation size : ExFat σ DirSetWriter) t =
      (.ok { w with current := v.slotLocation c (k + 1) }, t) := by
  have bound := stretch.bound (k + 1) inside
  rw [nextDirEntryLocation, here]
  rw [slotLocation_succ stretch.room] at bound ⊢
  rw [dirEntriesPerBlock] at bound ⊢
  by_cases full : (v.slotLocation c k).dirEntryOffset + 1 = size / rawEntryLen
  · rw [if_pos full] at bound ⊢
    rw [if_pos full, Exec.bind_of_ok (u32_of_lt bound t)]
    rfl
  · rw [if_neg full, if_neg full]
    rfl

theorem addNoWrite_run {σ : Type} {v : Volume size} (stretch : v.Stretch home c slots) {w : DirSetWriter}
    (inside : k < slots) (here : w.current = v.slotLocation c k) (raw : RawDirEntry) (isFileDir : Bool) (t : σ) :
    (w.addNoWrite size raw isFileDir : ExFat σ DirSetWriter) t =
      (.ok ⟨w.start, v.slotLocation c (k + 1), calcChecksum w.checksum raw isFileDir⟩, t) := by
  rw [addNoWrite, Exec.bind_of_ok (nextDirEntryLocation_run stretch inside here t)]
  rfl

theorem add_leads (sound : s.fs.Sound home) (stretch : (s.fs.volume home).Stretch home c slots) {w : DirSetWriter}
    (inside : k < slots) (here : w.current = (s.fs.volume home).slotLocation c k)
    (raw : RawDirEntry) (isFileDir : Bool) :
    Session.Leads home (w.add raw isFileDir) s
      (.ok ⟨w.start, (s.fs.volume home).slotLocation c (k + 1), calcChecksum w.checksum raw isFileDir⟩)
      ((s.fs.volume home).putEntry ((s.fs.volume home).slotLocation c k) raw) := by
  have fits := slot_fits stretch.room (s.fs.volume home) c k
  have sector := stretch.data k inside
  rw [add, here]
  refine .step (Exec.assert_of fits s) ?_
  refine (Session.leads_readMut sound sector _).bind fun s₁ sound₁ shown₁ => ?_
  refine (Session.leads_insert sound₁ _).bind fun s₂ sound₂ shown₂ => ?_
  exact .of_run (addNoWrite_run stretch inside here raw isFileDir s₂) sound₂ (shown₂.trans shown₁)

theorem addNameEntries_leads (rounds : Nat) : ∀ {units : List Nat} {k : Nat} {w : DirSetWriter} {s : Session size n},
    s.fs.Sound home → (s.fs.volume home).Stretch home c slots → k + (nameRaws rounds units).length ≤ slots →
    w.current = (s.fs.volume home).slotLocation c k →
    Session.Leads home (Session.addNameEntries rounds units w) s
      (.ok ⟨w.start, (s.fs.volume home).slotLocation c (k + (nameRaws rounds units).length),
        (nameRaws rounds units).foldl (fun sum raw => calcChecksum sum raw false) w.checksum⟩)
      (putEntries c k (nameRaws rounds units) (s.fs.volume home)) := by
  induction rounds with
  | zero =>
    intro units k w s sound _ _ here
    refine .of_run ?_ sound rfl
    rw [nameRaws, List.length_nil, Nat.add_zero, ← here]
    rfl
  | succ rounds ih =>
    intro units k w s sound stretch inside here
    rw [Session.addNameEntries, nameRaws]
    rw [nameRaws] at inside
    by_cases none_ : units.isEmpty = true
    · rw [if_pos none_, if_pos none_]
      refine .of_run ?_ sound rfl
      rw [List.length_nil, Nat.add_zero, ← here]
      rfl
    · rw [if_neg none_] at inside
      rw [List.length_cons] at inside
      rw [if_neg none_, if_neg none_]
      refine (add_leads sound stretch (by omega) here _ false).bind fun s₁ sound₁ shown₁ => ?_
      have setup : (s₁.fs.volume home).setup = (s.fs.volume home).setup := by rw [shown₁, putEntry_setup]
      have place := slotLocation_of_setup setup c
      have inside₁ : k + 1 + (nameRaws rounds (units.drop 15)).length ≤ slots := by omega
      have rest := ih (w := ⟨w.start, (s.fs.volume home).slotLocation c (k + 1),
        calcChecksum w.checksum (fileNameSerialize (units.take 15)) false⟩) sound₁ (stretch.of_setup setup) inside₁
        (place (k + 1)).symm
      rw [place, shown₁] at rest
      rw [List.length_cons, ← Nat.add_assoc, Nat.add_right_comm]
      exact rest

theorem finish_leads (sound : s.fs.Sound home) (stretch : (s.fs.volume home).Stretch home c slots) {w : DirSetWriter}
    (inside : k < slots) (here : w.start = (s.fs.volume home).slotLocation c k)
    (fileDir : RawDirEntry) :
    Session.Leads home (w.finish fileDir) s (.ok ())
      ((s.fs.volume home).putEntry ((s.fs.volume home).slotLocation c k)
        (fileDir.patch 2 (leBytes 2 w.checksum))) := by
  have fits := slot_fits stretch.room (s.fs.volume home) c k
  have sector := stretch.data k inside
  rw [finish, here]
  refine .step (Exec.assert_of fits s) ?_
  refine (Session.leads_readMut sound sector _).bind fun s₁ sound₁ shown₁ => ?_
  refine .of_run rfl sound₁ (shown₁.trans ?_)
  rw [putEntry, Block.patch_patch_within _ _ (by simp [rawEntryLen])]

end DirSetWriter

/-- The time provider, if there is one, only gives valid timestamps. -/
def Setup.Clocked (u : Setup) : Prop :=
  ∀ getTimestamp, u.timeProvider = some getTimestamp → ∀ i, (getTimestamp i).isValid = true

/-- The timestamp that the next call of `get_current_timestamp` returns. -/
def Setup.now (u : Setup) : EncodedTimestamp :=
  match u.timeProvider with
  | some getTimestamp => (getTimestamp u.clock).encodeValid
  | none => {}

/-- The volume after that call. -/
def Volume.tick {size : Nat} (v : Volume size) : Volume size :=
  match v.setup.timeProvider with
  | some _ => { v with setup := { v.setup with clock := v.setup.clock + 1 } }
  | none => v

theorem Setup.Clocked.now_fits {u : Setup} (clocked : u.Clocked) : u.now.Fits := by
  unfold Setup.now
  split
  · rename_i getTimestamp provider
    exact Timestamp.encodeValid_fits (clocked getTimestamp provider _)
  · exact ⟨by decide, by decide, by decide⟩

@[simp] theorem Volume.tick_sectors {size : Nat} (v : Volume size) : v.tick.sectors = v.sectors := by
  unfold tick
  split <;> rfl

theorem Volume.tick_setup {size : Nat} (v : Volume size) :
    v.tick.setup = { v.setup with clock := v.tick.setup.clock } := by
  unfold tick
  split <;> rfl

theorem Volume.tick_slotLocation {size : Nat} (v : Volume size) (c k : Nat) :
    v.tick.slotLocation c k = v.slotLocation c k := by
  rw [slotLocation, slotLocation, dataSector, dataSector, tick_setup]

theorem Volume.tick_clusterSlots {size : Nat} (v : Volume size) : v.tick.clusterSlots = v.clusterSlots := by
  rw [clusterSlots, clusterSlots, tick_setup]

theorem Volume.DirCluster.tick {size : Nat} {home : Nat → CacheKind} {v : Volume size} {c : Nat}
    (dir : v.DirCluster home c) : v.tick.DirCluster home c := by
  have sector : ∀ i, v.tick.dataSector c i = v.dataSector c i := fun i => by rw [dataSector, dataSector, tick_setup]
  refine ⟨dir.room, ?_, ?_, fun i inside => ?_, ?_⟩
  · rw [tick_setup]
    exact dir.layout.of_same rfl rfl rfl rfl
  · rw [InHeap, endCluster, tick_setup]
    exact dir.inHeap
  · rw [sector]
    rw [tick_setup] at inside
    exact dir.data i inside
  · rw [sector, tick_setup]
    exact dir.past

theorem Volume.Stretch.tick {size : Nat} {home : Nat → CacheKind} {v : Volume size} {c slots : Nat}
    (stretch : v.Stretch home c slots) : v.tick.Stretch home c slots := by
  refine ⟨stretch.room, fun k inside => ?_, fun k within => ?_⟩
  · rw [tick_slotLocation]
    exact stretch.data k inside
  · rw [tick_slotLocation]
    exact stretch.bound k within

namespace FileSystem

variable {size n : Nat} {home : Nat → CacheKind} {fs : FileSystem size n}

/-- The caches do not look at the clock. -/
theorem volume_clock (fs : FileSystem size n) (clock : Nat) : ({ fs with clock } : FileSystem size n).volume home =
    ⟨{ fs.setup with clock }, fs.sector home⟩ := by
  have sectors : ({ fs with clock } : FileSystem size n).sector home = fs.sector home := by
    funext s
    unfold sector
    cases home s <;> rfl
  exact congrArg (Volume.mk _) sectors

theorem Sound.clock (sound : fs.Sound home) (clock : Nat) : ({ fs with clock } : FileSystem size n).Sound home := by
  intro k
  cases k
  · exact sound .fat
  · exact sound .bitmap
  · exact sound .data

theorem getCurrentTimestamp_leads (sound : fs.Sound home) (clocked : fs.setup.Clocked) :
    FileSystem.Leads home getCurrentTimestamp fs (.ok fs.setup.now) (fs.volume home).tick := by
  refine .get ?_
  rcases Option.eq_none_or_eq_some fs.timeProvider with provider | ⟨getTimestamp, provider⟩
  · have now : fs.setup.now = {} := by simp [Setup.now, setup, provider]
    have tick : (fs.volume home).tick = fs.volume home := by simp [Volume.tick, setup, provider]
    rw [now, tick, provider]
    exact .of_run rfl sound rfl
  · have valid := clocked getTimestamp provider fs.clock
    have now : fs.setup.now = (getTimestamp fs.clock).encodeValid := by simp [Setup.now, setup, provider]
    have tick : (fs.volume home).tick = ({ fs with clock := fs.clock + 1 } : FileSystem size n).volume home := by
      have here : (fs.volume home).setup.timeProvider = some getTimestamp := provider
      rw [Volume.tick, here]
      exact (volume_clock fs _).symm
    have encoded : (Timestamp.encode (getTimestamp fs.clock) : ExFat (FileSystem size n) _)
        { fs with clock := fs.clock + 1 } =
        (.ok (getTimestamp fs.clock).encodeValid, { fs with clock := fs.clock + 1 }) := by
      rw [Timestamp.encode, Exec.bind_of_ok (Exec.assert_of valid _)]
      rfl
    rw [now, tick]
    refine .of_run ?_ (sound.clock _) rfl
    rw [← encoded]
    simp only [provider]
    rfl

end FileSystem

/-- What `create_file_dir_entry_at` is told about the new entry. -/
structure NewEntry where
  name : List Char
  firstCluster : Nat
  attributes : FileAttributes
  flags : GeneralSecondaryFlags
  validDataLength : Nat
  dataLength : Nat

namespace NewEntry

variable {size n : Nat} {home : Nat → CacheKind}

def units (e : NewEntry) : List Nat := encodeUtf16 e.name

/-- How many entries its set takes. -/
def setLen (e : NewEntry) : Nat := calcDirEntrySetLen e.units.length

def create (e : NewEntry) (fuel directoryClusterId : Nat) : ExFat (Session size n) FileDetails :=
  Session.createFileDirEntryAt fuel e.name directoryClusterId e.firstCluster e.attributes e.flags
    e.validDataLength e.dataLength

/-- The arguments are of the types that the source gives them, and the name is not too long. -/
structure Fits (e : NewEntry) : Prop where
  firstCluster : e.firstCluster < 2 ^ 32
  validDataLength : e.validDataLength < 2 ^ 64
  dataLength : e.dataLength < 2 ^ 64
  short : e.units.length ≤ 255

/-- The file entry before its checksum is filled in. -/
def fileDir (e : NewEntry) (now : EncodedTimestamp) : RawDirEntry := FileDirEntry.serialize {
  secondaryCount := e.setLen - 1
  setChecksum := 0
  fileAttributes := e.attributes
  createTimestamp := now.packed
  lastModifiedTimestamp := now.packed
  lastAccessedTimestamp := now.packed
  create10msIncrement := now.increment10ms
  lastModified10msIncrement := now.increment10ms
  createUtcOffset := now.utcOffset
  lastModifiedUtcOffset := now.utcOffset
  lastAccessedUtcOffset := now.utcOffset }

def stream (e : NewEntry) (nameHash : Nat) : RawDirEntry := StreamExtensionDirEntry.serialize {
  generalSecondaryFlags := e.flags
  nameLength := e.units.length
  nameHash
  validDataLength := e.validDataLength
  firstCluster := e.firstCluster
  dataLength := e.dataLength }

/-- The entries after the first. -/
def secondary (e : NewEntry) (nameHash : Nat) : List RawDirEntry :=
  e.stream nameHash :: nameRaws e.units.length e.units

/-- The file entry with the checksum of the set. -/
def primary (e : NewEntry) (nameHash : Nat) (now : EncodedTimestamp) : RawDirEntry :=
  (e.fileDir now).patch 2 (leBytes 2 (setChecksum (e.fileDir now :: e.secondary nameHash)))

/-- The whole set, as it is on the volume afterwards. -/
def raws (e : NewEntry) (nameHash : Nat) (now : EncodedTimestamp) : List RawDirEntry :=
  e.primary nameHash now :: e.secondary nameHash

def details (e : NewEntry) (now : EncodedTimestamp) (place : Location) : FileDetails where
  firstCluster := e.firstCluster
  dataLength := e.dataLength
  validDataLength := e.validDataLength
  attributes := e.attributes
  location := place
  flags := e.flags
  secondaryCount := e.setLen - 1
  created := now
  modified := now
  accessed := now

theorem setLen_bounds {e : NewEntry} (short : e.units.length ≤ 255) :
    e.setLen = 2 + (nameRaws e.units.length e.units).length ∧ e.setLen ≤ 19 := by
  have names := length_nameRaws e.units.length (le_refl e.units.length)
  rw [setLen, calcDirEntrySetLen, Nat.mod_eq_of_lt (by omega), names]
  refine ⟨rfl, ?_⟩
  simp only [FileSystem.divCeil]
  omega

theorem length_raws {e : NewEntry} (short : e.units.length ≤ 255) (nameHash : Nat) (now : EncodedTimestamp) :
    (e.raws nameHash now).length = e.setLen := by
  rw [(setLen_bounds short).1, raws, secondary, List.length_cons, List.length_cons]
  omega

/-- The part of `create_file_dir_entry_at` that writes the set. -/
def writeSet (e : NewEntry) (nameHash : Nat) (now : EncodedTimestamp) (place : Location) :
    ExFat (Session size n) Unit := do
  let writer ← (DirSetWriter.new place).add (e.fileDir now) true
  let writer ← writer.add (e.stream nameHash) false
  let writer ← Session.addNameEntries e.units.length e.units writer
  writer.finish (e.fileDir now)

theorem writeSet_leads {s : Session size n} (sound : s.fs.Sound home) {e : NewEntry} {c k slots : Nat}
    (stretch : (s.fs.volume home).Stretch home c slots) (short : e.units.length ≤ 255) (nameHash : Nat)
    (now : EncodedTimestamp)
    (inside : k + e.setLen ≤ slots) :
    Session.Leads home (e.writeSet nameHash now ((s.fs.volume home).slotLocation c k)) s (.ok ())
      (Volume.putEntries c k (e.raws nameHash now) (s.fs.volume home)) := by
  obtain ⟨setLen, _⟩ := setLen_bounds short
  rw [writeSet]
  refine (DirSetWriter.add_leads (k := k) sound stretch (by omega) rfl _ true).bind fun s₁ sound₁ shown₁ => ?_
  have setup₁ : (s₁.fs.volume home).setup = (s.fs.volume home).setup := by rw [shown₁, Volume.putEntry_setup]
  have place₁ := Volume.slotLocation_of_setup setup₁ c
  refine (DirSetWriter.add_leads (k := k + 1) sound₁ (stretch.of_setup setup₁) (by omega)
    (place₁ _).symm _ false).bind
    fun s₂ sound₂ shown₂ => ?_
  have setup₂ : (s₂.fs.volume home).setup = (s.fs.volume home).setup := by rw [shown₂, Volume.putEntry_setup, setup₁]
  have place₂ := Volume.slotLocation_of_setup setup₂ c
  refine (DirSetWriter.addNameEntries_leads (k := k + 2) e.units.length sound₂ (stretch.of_setup setup₂) (by omega)
    ((place₁ _).trans (place₂ _).symm)).bind fun s₃ sound₃ shown₃ => ?_
  have setup₃ : (s₃.fs.volume home).setup = (s.fs.volume home).setup := by
    rw [shown₃, Volume.putEntries_setup, setup₂]
  have place₃ := Volume.slotLocation_of_setup setup₃ c
  have written : s₃.fs.volume home = Volume.putEntries c (k + 1) (e.secondary nameHash)
      ((s.fs.volume home).putEntry ((s.fs.volume home).slotLocation c k) (e.fileDir now)) := by
    rw [shown₃, shown₂, place₁, shown₁]
    rfl
  -- the first entry is put once more, with the checksum in it
  have target : Volume.putEntries c k (e.raws nameHash now) (s.fs.volume home) = (s₃.fs.volume home).putEntry
      ((s₃.fs.volume home).slotLocation c k) (e.primary nameHash now) := by
    have last : (Volume.putEntries c (k + 1) (e.secondary nameHash) _).putEntry _ (e.primary nameHash now) = _ :=
      Volume.putEntry_putEntries
        (v := (s.fs.volume home).putEntry ((s.fs.volume home).slotLocation c k) (e.fileDir now))
        (e.secondary nameHash) (Nat.lt_succ_self k)
    rw [Volume.putEntry_slotLocation, Volume.putEntry_putEntry] at last
    rw [place₃, written, last]
    rfl
  rw [target, primary, DirSetWriter.setChecksum_cons, secondary, List.foldl_cons]
  exact DirSetWriter.finish_leads sound₃ (stretch.of_setup setup₃) (by omega) (place₃ k).symm _

theorem create_leads {s : Session size n} {e : NewEntry} {fuel d nameHash c k slots : Nat}
    (stretch : (s.fs.volume home).Stretch home c slots) (clocked : s.fs.setup.Clocked) (short : e.units.length ≤ 255)
    (accepted : (encodeUtf16UpcaseAndHash e.name s.fs.upcaseTable : ExFat (Session size n) (Nat × Nat)) s =
      (.ok (nameHash, e.units.length), s))
    (found : FileSystem.Leads home (FileSystem.findEmptyDirEntrySet fuel d e.setLen) s.fs
      (.ok ((s.fs.volume home).slotLocation c k)) (s.fs.volume home))
    (inside : k + e.setLen ≤ slots) :
    Session.Leads home (e.create fuel d) s (.ok (e.details s.fs.setup.now ((s.fs.volume home).slotLocation c k)))
      (Volume.putEntries c k (e.raws nameHash s.fs.setup.now) (s.fs.volume home).tick) := by
  obtain ⟨setLen, few⟩ := setLen_bounds short
  have count : calcDirEntrySetLen e.units.length % 2 ^ 8 = e.setLen :=
    Nat.mod_eq_of_lt (show e.setLen < 2 ^ 8 by omega)
  rw [create, Session.createFileDirEntryAt]
  refine .get (.step accepted ?_)
  dsimp only
  refine (Session.leads_onFs found).bind fun s₁ sound₁ shown₁ => ?_
  have setup₁ : s₁.fs.setup = s.fs.setup := congrArg Volume.setup shown₁
  rw [count]
  refine .step (minus_of_le (by omega) s₁) ?_
  have clock := Session.leads_onFs (FileSystem.getCurrentTimestamp_leads sound₁ (setup₁ ▸ clocked))
  rw [setup₁, shown₁] at clock
  refine clock.bind fun s₂ sound₂ shown₂ => ?_
  have place : (s₂.fs.volume home).slotLocation c k = (s.fs.volume home).slotLocation c k := by
    rw [shown₂, Volume.tick_slotLocation]
  have written := writeSet_leads sound₂ (shown₂ ▸ stretch.tick) short nameHash s.fs.setup.now inside
  rw [place, shown₂] at written
  rw [Nat.mod_eq_of_lt (show e.units.length < 2 ^ 8 by omega)]
  obtain ⟨s₃, run, sound₃, shown₃⟩ := written
  refine ⟨s₃, ?_, sound₃, shown₃⟩
  have whole : (e.writeSet nameHash s.fs.setup.now ((s.fs.volume home).slotLocation c k) >>= fun _ =>
      pure (e.details s.fs.setup.now ((s.fs.volume home).slotLocation c k)) : ExFat (Session size n) _) s₂ = _ :=
    Exec.bind_of_ok run
  simp only [writeSet, Exec.bind_assoc] at whole
  exact whole

end NewEntry

end ExFatSlim
