import ExFatSlim.AllocatorRuns

namespace ExFatSlim

/-- A well-formed volume: the allocator's part, and the places of the FAT and
of the cluster heap. -/
structure Layout (size : Nat) (home : Nat → CacheKind) (u : Setup) : Prop extends BitmapLayout size home u where
  mounted : u.isMounted = true
  ids : u.bitmap.clusterCount + 1 ≤ Fat.clusterLen
  fat : ∃ start, u.startOfFatSector = some start ∧ ∀ c, 2 ≤ c → c < 2 + u.bitmap.clusterCount →
    start + c / Fat.numEntries size < 2 ^ 32 ∧ home (start + c / Fat.numEntries size) = .fat
  sectorsPerCluster : 0 < u.details.sectorsPerCluster
  clusterLength : u.details.clusterLength = size * u.details.sectorsPerCluster
  clusterBound : u.details.clusterLength < 2 ^ 32
  heap : u.details.clusterHeapOffset + u.bitmap.clusterCount * u.details.sectorsPerCluster ≤ 2 ^ 32

/-- What a well-formed volume looks at does not include where the next search starts. -/
theorem Layout.of_same {size : Nat} {home : Nat → CacheKind} {u u' : Setup} (layout : Layout size home u)
    (mounted : u'.isMounted = u.isMounted) (bitmap : u'.bitmap = u.bitmap)
    (fat : u'.startOfFatSector = u.startOfFatSector) (details : u'.details = u.details) : Layout size home u' where
  toBitmapLayout := layout.toBitmapLayout.of_bitmap bitmap
  mounted := mounted ▸ layout.mounted
  ids := bitmap ▸ layout.ids
  fat := by
    rw [fat, bitmap]
    exact layout.fat
  sectorsPerCluster := details ▸ layout.sectorsPerCluster
  clusterLength := details ▸ layout.clusterLength
  clusterBound := details ▸ layout.clusterBound
  heap := by
    rw [details, bitmap]
    exact layout.heap

namespace Fat

variable {size : Nat}

/-- The entry of a cluster in a FAT whose first sector is `start`. -/
def entryIn (start : Nat) (sectors : Nat → Block size) (c : Nat) : Nat :=
  (sectors (start + c / numEntries size)).le (c % numEntries size * entrySize) entrySize

theorem entry_within (some : 0 < numEntries size) (c : Nat) :
    c % numEntries size * entrySize + entrySize ≤ size := by
  have small := Nat.mod_lt c some
  have whole : numEntries size * entrySize ≤ size := Nat.div_mul_le_self size entrySize
  calc c % numEntries size * entrySize + entrySize = (c % numEntries size + 1) * entrySize := (Nat.succ_mul _ _).symm
    _ ≤ numEntries size * entrySize := Nat.mul_le_mul_right _ small
    _ ≤ size := whole

/-- The sectors with another entry for a cluster. -/
def relink (start : Nat) (sectors : Nat → Block size) (c next : Nat) : Nat → Block size :=
  Function.update sectors (start + c / numEntries size)
    ((sectors (start + c / numEntries size)).patch (c % numEntries size * entrySize) (leBytes entrySize next))

theorem entryIn_relink_self (some : 0 < numEntries size) (start : Nat) (sectors : Nat → Block size) (c : Nat)
    {next : Nat} (small : next < 2 ^ 32) : entryIn start (relink start sectors c next) c = next := by
  rw [entryIn, relink, Function.update_self, Block.le_patch_same _ (entry_within some c)]
  simp only [entrySize]
  omega

/-- Two entries may share a sector, but no bytes. -/
theorem entryIn_relink_ne (start : Nat) (sectors : Nat → Block size) {c d : Nat} (other : d ≠ c) (next : Nat) :
    entryIn start (relink start sectors c next) d = entryIn start sectors d := by
  rw [entryIn, entryIn, relink]
  by_cases same : d / numEntries size = c / numEntries size
  · have apart : d % numEntries size ≠ c % numEntries size := by
      intro equal
      apply other
      rw [← Nat.div_add_mod d (numEntries size), ← Nat.div_add_mod c (numEntries size), same, equal]
    rw [same, Function.update_self, Block.le_patch_apart]
    simp only [length_leBytes, entrySize]
    omega
  · rw [Function.update_of_ne (by omega)]

end Fat

namespace Volume

variable {size : Nat} {home : Nat → CacheKind} {v : Volume size}

def fatSector (v : Volume size) (c : Nat) : Nat := v.setup.startOfFatSector.getD 0 + c / Fat.numEntries size

/-- The entry of a cluster in the FAT. -/
def fatEntry (v : Volume size) (c : Nat) : Nat :=
  (v.sectors (v.fatSector c)).le (c % Fat.numEntries size * Fat.entrySize) Fat.entrySize

/-- The cluster that the FAT names after another one. -/
def next (v : Volume size) (c : Nat) : Option Nat :=
  if Fat.minClusterId ≤ v.fatEntry c ∧ v.fatEntry c ≤ Fat.clusterLen then some (v.fatEntry c) else none

/-- The volume with another FAT entry. -/
def link (v : Volume size) (c next : Nat) : Volume size :=
  v.store (v.fatSector c)
    ((v.sectors (v.fatSector c)).patch (c % Fat.numEntries size * Fat.entrySize) (leBytes Fat.entrySize next))

@[simp] theorem link_setup (v : Volume size) (c next : Nat) : (v.link c next).setup = v.setup := rfl

@[simp] theorem link_fatSector (v : Volume size) (c next d : Nat) :
    (v.link c next).fatSector d = v.fatSector d := rfl

theorem numEntries_pos (words : 4 ∣ size) (pos : 0 < size) : 0 < Fat.numEntries size :=
  Nat.div_pos (Nat.le_of_dvd pos words) (by simp [Fat.entrySize])

theorem fatEntry_link_self (words : 4 ∣ size) (pos : 0 < size) (v : Volume size) (c : Nat) {next : Nat}
    (small : next < 2 ^ 32) : (v.link c next).fatEntry c = next :=
  Fat.entryIn_relink_self (numEntries_pos words pos) _ v.sectors c small

theorem fatEntry_link_ne (v : Volume size) {c d : Nat} (other : d ≠ c) (next : Nat) :
    (v.link c next).fatEntry d = v.fatEntry d :=
  Fat.entryIn_relink_ne _ v.sectors other next

theorem next_link_self (words : 4 ∣ size) (pos : 0 < size) (v : Volume size) (c : Nat) {next : Nat}
    (low : 2 ≤ next) (high : next ≤ Fat.clusterLen) : (v.link c next).next c = some next := by
  have small : next < 2 ^ 32 := by simp only [Fat.clusterLen] at high; omega
  rw [Volume.next, fatEntry_link_self words pos v c small, if_pos ⟨low, high⟩]

theorem next_link_end (words : 4 ∣ size) (pos : 0 < size) (v : Volume size) (c : Nat) :
    (v.link c Fat.endOfChain).next c = none := by
  rw [Volume.next, fatEntry_link_self words pos v c (by simp [Fat.endOfChain]), if_neg]
  simp [Fat.endOfChain, Fat.clusterLen]

/-- The volume with each cluster of a path linked to the one after it. -/
def linkPath : List Nat → Volume size → Volume size
  | a :: b :: rest, v => linkPath (b :: rest) (v.link a b)
  | _, v => v

@[simp] theorem linkPath_setup (path : List Nat) : ∀ v : Volume size, (v.linkPath path).setup = v.setup := by
  induction path with
  | nil => intro v; rfl
  | cons a rest ih =>
    intro v
    cases rest with
    | nil => rfl
    | cons b rest => exact ih (v.link a b)

theorem next_of_fatEntry {v' : Volume size} {c : Nat} (same : v'.fatEntry c = v.fatEntry c) :
    v'.next c = v.next c := by
  rw [Volume.next, Volume.next, same]

/-- Only the last cluster of a path keeps its entry. -/
theorem fatEntry_linkPath (path : List Nat) {d : Nat} : ∀ v : Volume size, d ∉ path.dropLast →
    (v.linkPath path).fatEntry d = v.fatEntry d := by
  induction path with
  | nil => intro v _; rfl
  | cons a rest ih =>
    intro v outside
    cases rest with
    | nil => rfl
    | cons b rest =>
      rw [List.dropLast_cons_cons, List.mem_cons, not_or] at outside
      exact (ih (v.link a b) outside.2).trans (fatEntry_link_ne v outside.1 b)

theorem next_linkPath (words : 4 ∣ size) (pos : 0 < size) (path : List Nat) : ∀ v : Volume size, path.Nodup →
    (∀ c ∈ path, 2 ≤ c ∧ c ≤ Fat.clusterLen) → path.IsChain fun a b => (v.linkPath path).next a = some b := by
  induction path with
  | nil => intro v _ _; exact .nil
  | cons a rest ih =>
    intro v distinct valid
    cases rest with
    | nil => exact .singleton a
    | cons b rest =>
      have apart := (List.nodup_cons.mp distinct).1
      have kept : a ∉ (b :: rest).dropLast := fun member => apart (List.dropLast_subset _ member)
      refine .cons_cons ?_ (ih (v.link a b) (List.nodup_cons.mp distinct).2 fun c member => valid c (by simp_all))
      have range := valid b (by simp)
      have first : ((v.link a b).linkPath (b :: rest)).fatEntry a = (v.link a b).fatEntry a :=
        fatEntry_linkPath _ _ kept
      exact (next_of_fatEntry first).trans (next_link_self words pos v a range.1 range.2)

/-- A later volume in which only FAT entries of the clusters `cs` differ. -/
structure Relinked (home : Nat → CacheKind) (cs : List Nat) (v v' : Volume size) : Prop where
  setup : v'.setup = v.setup
  others : ∀ s, home s ≠ .fat → v'.sectors s = v.sectors s
  entries : ∀ c, c ∉ cs → v'.fatEntry c = v.fatEntry c

theorem Relinked.refl (v : Volume size) (cs : List Nat) : Relinked home cs v v :=
  ⟨rfl, fun _ _ => rfl, fun _ _ => rfl⟩

theorem Relinked.trans {cs : List Nat} {v' v'' : Volume size} (first : Relinked home cs v v')
    (second : Relinked home cs v' v'') : Relinked home cs v v'' where
  setup := second.setup.trans first.setup
  others s foreign := (second.others s foreign).trans (first.others s foreign)
  entries c outside := (second.entries c outside).trans (first.entries c outside)

theorem Relinked.mono {cs ds : List Nat} {v' : Volume size} (relinked : Relinked home cs v v') (more : cs ⊆ ds) :
    Relinked home ds v v' where
  setup := relinked.setup
  others := relinked.others
  entries c outside := relinked.entries c fun member => outside (more member)

end Volume

namespace Layout

variable {size : Nat} {home : Nat → CacheKind} {v : Volume size}

theorem fatSector_home (layout : Layout size home v.setup) {c : Nat} (inHeap : v.InHeap c) :
    home (v.fatSector c) = .fat := by
  obtain ⟨start, found, place⟩ := layout.fat
  rw [Volume.fatSector, found]
  exact (place c inHeap.1 inHeap.2).2

theorem link_relinked (layout : Layout size home v.setup) {c : Nat} (inHeap : v.InHeap c) (next : Nat) :
    Volume.Relinked home [c] v (v.link c next) where
  setup := rfl
  others s foreign := by
    refine Volume.store_sectors_ne v ?_ _
    rintro rfl
    exact foreign (layout.fatSector_home inHeap)
  entries d outside := v.fatEntry_link_ne (by simpa using outside) next

theorem linkPath_relinked (path : List Nat) : ∀ {v : Volume size}, Layout size home v.setup →
    (∀ c ∈ path, v.InHeap c) → Volume.Relinked home path v (v.linkPath path) := by
  induction path with
  | nil => intro v _ _; exact .refl v _
  | cons a rest ih =>
    intro v layout inside
    cases rest with
    | nil => exact .refl v _
    | cons b rest =>
      have first := layout.link_relinked (inside a (by simp)) b
      have later := ih (v := v.link a b) layout fun c member => inside c (by simp_all)
      exact (first.mono (by simp)).trans (later.mono (by simp))

theorem id_bound (layout : Layout size home v.setup) {c : Nat} (inHeap : v.InHeap c) :
    c ≤ Fat.clusterLen ∧ c < 2 ^ 32 := by
  have ids := layout.ids
  have high : c < 2 + v.setup.bitmap.clusterCount := inHeap.2
  simp only [Fat.clusterLen] at ids ⊢
  omega

end Layout

namespace Fat

variable {size n : Nat} {home : Nat → CacheKind}

theorem getSectorId_eq {fs : FileSystem size n} (layout : Layout size home fs.setup) (c : Nat) :
    getSectorId c fs = (u32 ((fs.volume home).fatSector c) : ExFat (FileSystem size n) Nat) fs := by
  obtain ⟨start, found, _⟩ := layout.fat
  have start_eq : fs.fat.startOfFatSector = some start := found
  have sector : (fs.volume home).fatSector c = start + c / numEntries size := by
    rw [Volume.fatSector, FileSystem.volume_setup, found, Option.getD_some]
  rw [getSectorId, Exec.bind_of_ok (Exec.get_apply fs), start_eq, sector]

theorem getSectorId_run {fs : FileSystem size n} (layout : Layout size home fs.setup) {c : Nat}
    (inHeap : (fs.volume home).InHeap c) : getSectorId c fs = (.ok ((fs.volume home).fatSector c), fs) := by
  obtain ⟨start, found, place⟩ := layout.fat
  have sector : (fs.volume home).fatSector c = start + c / numEntries size := by
    rw [Volume.fatSector, FileSystem.volume_setup, found, Option.getD_some]
  rw [getSectorId_eq layout, sector]
  exact u32_of_lt (place c inHeap.1 inHeap.2).1 fs

theorem set_leads {s : Session size n} (sound : s.fs.Sound home) (layout : Layout size home s.fs.setup)
    {c : Nat} (inHeap : (s.fs.volume home).InHeap c) (next : Nat) :
    Session.Leads home (Fat.set c next) s (.ok ()) ((s.fs.volume home).link c next) := by
  rw [Fat.set]
  refine .step (Exec.assert_of (show minClusterId ≤ c from inHeap.1) s) ?_
  have sector : Session.Leads home (Session.onFs (getSectorId c)) s (.ok ((s.fs.volume home).fatSector c))
      (s.fs.volume home) := Session.leads_onFs (.of_run (getSectorId_run layout inHeap) sound rfl)
  refine sector.bind fun s₁ sound₁ shown₁ => ?_
  refine (Session.leads_insert sound₁ _).bind fun s₂ sound₂ shown₂ => ?_
  have here := Layout.fatSector_home (v := s.fs.volume home) layout inHeap
  refine (Session.leads_readMut sound₂ here _).bind fun s₃ sound₃ shown₃ => ?_
  rw [shown₂, shown₁] at shown₃
  exact .of_run rfl sound₃ shown₃

theorem nextClusterInFatChain_leads {fs : FileSystem size n} (sound : fs.Sound home)
    (layout : Layout size home fs.setup) {c : Nat} (inHeap : (fs.volume home).InHeap c) :
    FileSystem.Leads home (nextClusterInFatChain c) fs (.ok ((fs.volume home).next c)) (fs.volume home) := by
  rw [nextClusterInFatChain]
  refine .step (Exec.assert_of (show minClusterId ≤ c from inHeap.1) fs) ?_
  refine .step (getSectorId_run layout inHeap) ?_
  have here := Layout.fatSector_home (v := fs.volume home) layout inHeap
  refine (FileSystem.leads_read sound here).bind fun fs' sound' shown' => ?_
  rw [Volume.next, Volume.fatEntry]
  split
  · rename_i valid
    rw [if_pos valid]
    exact .of_run rfl sound' shown'
  · rename_i invalid
    rw [if_neg invalid]
    exact .of_run rfl sound' shown'

end Fat

end ExFatSlim
