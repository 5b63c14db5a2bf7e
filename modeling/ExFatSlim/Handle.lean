import ExFatSlim.Wandering
import ExFatSlim.WriteSplice

namespace ExFatSlim

/-- The data sectors outside of the clusters `cs` are as they were. -/
def Volume.Spares {size : Nat} (home : Nat → CacheKind) (cs : List Nat) (v v' : Volume size) : Prop :=
  ∀ t, home t = .data → (∀ c ∈ cs, ∀ i < v.setup.details.sectorsPerCluster, t ≠ v.dataSector c i) →
    v'.sectors t = v.sectors t

namespace FileSession

open File

variable {size n : Nat} {home : Nat → CacheKind} {s s' : FileSession size n} {cs added : List Nat} {k : Nat}

/-- A handle whose chain has room for the file, wherever in the chain it is. -/
structure Sized (home : Nat → CacheKind) (cs : List Nat) (s : FileSession size n) : Prop extends
    Holds home cs s where
  clusters : FileSystem.divCeil s.file.details.dataLength s.fs.fs.clusterLength ≤ cs.length
  valid : s.file.details.validDataLength ≤ s.file.details.dataLength
  cursor : s.file.cursor ≤ s.file.details.dataLength

/-- Such a handle at a cluster of its chain, if the chain has any. -/
structure Kept (home : Nat → CacheKind) (cs : List Nat) (s : FileSession size n) : Prop extends
    Sized home cs s where
  place : cs = [] ∨ s.file.currentCluster ∈ cs

/-- A handle right after its chain, at a free cluster of the heap. -/
structure Verging (home : Nat → CacheKind) (cs : List Nat) (s : FileSession size n) : Prop where
  hint : Allocator.hintOf s.file.chain = some s.file.currentCluster
  inHeap : (s.fs.volume home).InHeap s.file.currentCluster
  free : (s.fs.volume home).IsFree s.file.currentCluster
  cursor : s.file.cursor = cs.length * s.fs.fs.clusterLength

theorem Sized.fits (sized : Sized home cs s) :
    s.file.details.dataLength ≤ cs.length * s.fs.fs.clusterLength :=
  (divCeil_le sized.toHolds.clusterLength.2.1).mp sized.clusters

/-- An empty chain is that of an empty file. -/
theorem Sized.dataLength_nil (sized : Sized home [] s) : s.file.details.dataLength = 0 := by
  have fits := sized.fits
  rw [List.length_nil, Nat.zero_mul] at fits
  omega

theorem Wanders.kept (wanders : Wanders home cs k s s') (sized : Sized home cs s)
    (within : s.file.cursor + k ≤ s.file.details.dataLength) : Kept home cs s' where
  toHolds := wanders.holds
  clusters := by
    have length : s'.fs.fs.clusterLength = s.fs.fs.clusterLength :=
      congrArg (fun u : Setup => u.details.clusterLength) wanders.volume.setup
    rw [wanders.moved.details, length]
    exact sized.clusters
  valid := by
    rw [wanders.moved.details]
    exact sized.valid
  cursor := by
    rw [wanders.moved.details]
    exact wanders.cursor.trans within
  place := Or.inr wanders.place

/-- Reading leaves the volume as it is, and the handle in its chain. -/
theorem Kept.read (kept : Kept home cs s) (len : Nat) : Kept home cs (File.read len s).2 := by
  have cursor := kept.cursor
  rw [File.read, Exec.bind_of_ok (mount_run kept.layout.mounted), Exec.bind_of_ok (Exec.get_apply s)]
  by_cases enabled : s.file.openOptions.read = true
  · rw [enabled, if_neg (by simp)]
    by_cases ended : s.file.eof = true
    · rw [ended, if_pos rfl]
      exact kept
    · rw [Bool.not_eq_true] at ended
      rw [ended, if_neg (by simp)]
      split
      · exact kept
      · have place : s.file.currentCluster ∈ cs := by
          refine kept.place.resolve_left ?_
          rintro rfl
          have nothing := kept.toSized.dataLength_nil
          simp [eof] at ended
          omega
        have wandered := readIn_wanders len len [] kept.toHolds place
        rw [← Exec.bind_pure_state _ some] at wandered
        exact wandered.kept kept.toSized (by omega)
  · rw [Bool.not_eq_true] at enabled
    rw [enabled, if_pos (by simp)]
    exact kept

/-- The chain after `allocate_clusters_for`, whether it got all it asked for or not. -/
theorem Grew.kept {count : Nat} {r : Except (Fault ExFatError) Unit} (grew : Grew home cs added count s r s')
    (sized : Sized home cs s) (place : cs = [] ∨ s.file.currentCluster ∈ cs ∨ Verging home cs s) :
    Kept home (cs ++ added) s' := by
  obtain ⟨details, cursor, _⟩ := grew.file.kept
  have length : s'.fs.fs.clusterLength = s.fs.fs.clusterLength := by
    have setup := grew.volume.setup
    exact congrArg (fun u : Setup => u.details.clusterLength) setup
  have dataLength : s'.file.details.dataLength = s.file.details.dataLength := by rw [details]
  have validDataLength : s'.file.details.validDataLength = s.file.details.validDataLength := by rw [details]
  refine ⟨⟨grew.holds, ?_, ?_, ?_⟩, ?_⟩
  · rw [dataLength, length, List.length_append]
    exact sized.clusters.trans (Nat.le_add_right _ _)
  · rw [dataLength, validDataLength]
    exact sized.valid
  · rw [cursor, dataLength]
    exact sized.cursor
  · have empty := lists_empty sized.owns.lists
    rcases grew.file with ⟨rfl, same⟩ | ⟨first, head, grown⟩
    · rw [List.append_nil, eq_of_bare same]
      rcases place with none_ | member | verging
      · exact Or.inl none_
      · exact Or.inr member
      · have head := grew.near _ verging.hint verging.inHeap verging.free
        simp at head
    · have member : first ∈ added := List.mem_of_mem_head? head
      by_cases nothing : cs = []
      · rw [(grown.start (empty.mpr nothing)).1]
        exact Or.inr (List.mem_append_right _ member)
      · rw [(grown.place (fun none_ => nothing (empty.mp none_))).1]
        rcases place with none_ | old | verging
        · exact absurd none_ nothing
        · exact Or.inr (List.mem_append_left _ old)
        · have near := grew.near _ verging.hint verging.inHeap verging.free
          exact Or.inr (List.mem_append_right _ (List.mem_of_mem_head? near))

/-- The clusters for a write are there afterwards, or the disk is full. -/
theorem Sized.reserve (sized : Sized home cs s)
    (place : cs = [] ∨ s.file.currentCluster ∈ cs ∨ Verging home cs s) {length : Nat} (some_ : 0 < length)
    (addressable : length < 2 ^ s.fs.usizeBits)
    (few : FileSystem.divCeil length s.fs.fs.clusterLength < 2 ^ 32) :
    ∃ r s' added, reserve length s = (r, s') ∧ Kept home (cs ++ added) s' ∧
      s'.fs.setup.details = s.fs.setup.details ∧
      (∀ t, home t = .data → (s'.fs.volume home).sectors t = (s.fs.volume home).sectors t) ∧
      s'.file.cursor = s.file.cursor ∧
      (r = .ok () ∧ s.file.cursor + length ≤ (cs ++ added).length * s.fs.fs.clusterLength ∨
        r = .error (.error .diskFull)) := by
  obtain ⟨_, pos, _⟩ := sized.toHolds.clusterLength
  have cursor := sized.cursor
  have capacity : s.capacity ≤ cs.length * s.fs.fs.clusterLength := Nat.mul_le_mul_right _ sized.clusters
  have inside : s.file.details.dataLength ≤ s.capacity := le_divCeil_mul pos _
  by_cases more : s.capacity < s.file.cursor + length
  · have missing : 0 < FileSystem.divCeil (s.file.cursor + length - s.capacity) s.fs.fs.clusterLength := by
      rw [Nat.pos_iff_ne_zero]
      intro none_
      have reach := (divCeil_le (c := 0) pos).mp none_.le
      omega
    have fewer : FileSystem.divCeil (s.file.cursor + length - s.capacity) s.fs.fs.clusterLength ≤
        FileSystem.divCeil length s.fs.fs.clusterLength := Nat.div_le_div_right (by omega)
    obtain ⟨r, s', added, run, grew⟩ := allocateRuns_spec
      (FileSystem.divCeil (s.file.cursor + length - s.capacity) s.fs.fs.clusterLength + 1) sized.toHolds missing
      (Nat.le_succ _)
    have opened : FileSession.reserve length s = (r, s') := by
      rw [reserve_of_lt more, Nat.mod_eq_of_lt (by omega), allocateClustersFor, Exec.bind_of_ok (Exec.get_apply s),
        Nat.mod_eq_of_lt (by omega), run]
    have details : (s'.fs.volume home).setup.details = (s.fs.volume home).setup.details := by
      rw [grew.volume.setup]
    refine ⟨r, s', added, opened, grew.kept sized place, details, grew.volume.data,
      grew.file.kept.2.1, grew.outcome.imp (fun done => ⟨done.1, ?_⟩) fun full => full.1⟩
    have needed := le_divCeil_mul pos (s.file.cursor + length - s.capacity)
    rw [List.length_append, done.2, Nat.add_mul]
    omega
  · refine ⟨.ok (), s, [], reserve_of_le (by omega), ⟨?_, ?_⟩, rfl, fun _ _ => rfl, rfl, Or.inl ⟨rfl, ?_⟩⟩
    · rw [List.append_nil]
      exact sized
    · rw [List.append_nil]
      rcases place with none_ | member | verging
      · exact Or.inl none_
      · exact Or.inr member
      · have after := verging.cursor
        omega
    · rw [List.append_nil]
      omega

/-- The second half of a write, once the clusters are there. -/
theorem Kept.putAll {s₀ : FileSession size n} (kept : Kept home cs s)
    (details : s.fs.setup.details = s₀.fs.setup.details)
    (same : ∀ t, home t = .data → (s.fs.volume home).sectors t = (s₀.fs.volume home).sectors t)
    (cursor : s.file.cursor = s₀.file.cursor) {buf : List UInt8} (some_ : 0 < buf.length)
    (room : s₀.file.cursor + buf.length ≤ cs.length * s₀.fs.fs.clusterLength) {touched : FileDirty} :
    let written : FileSession size n := ⟨s.fs, { s.file with
      details := { s.file.details with
        validDataLength := max (s.file.cursor + buf.length) s.file.details.validDataLength
        dataLength :=
          max (max (s.file.cursor + buf.length) s.file.details.validDataLength) s.file.details.dataLength }
      touched }⟩
    Kept home cs (writeBytes buf written).2 ∧
      Volume.Spares home cs (s₀.fs.volume home) ((writeBytes buf written).2.fs.volume home) := by
  intro written
  have length : s.fs.fs.clusterLength = s₀.fs.fs.clusterLength := congrArg FileSystemDetails.clusterLength details
  obtain ⟨_, pos, _⟩ := kept.toHolds.clusterLength
  have holds : Holds home cs written := kept.toHolds.rewritten kept.sound (.refl _) rfl rfl
  have place : written.file.currentCluster ∈ cs := by
    refine kept.place.resolve_left ?_
    rintro rfl
    rw [List.length_nil, Nat.zero_mul] at room
    omega
  have sized : Sized home cs written := by
    have valid := kept.valid
    have clusters : max (max (s.file.cursor + buf.length) s.file.details.validDataLength)
        s.file.details.dataLength ≤ cs.length * s.fs.fs.clusterLength := by
      have fits := kept.toSized.fits
      rw [← length, ← cursor] at room
      omega
    refine ⟨holds, (divCeil_le pos).mpr clusters, Nat.le_max_left _ _, ?_⟩
    change s.file.cursor ≤ max (max (s.file.cursor + buf.length) _) _
    omega
  have wandered := writeBytes_wanders holds place buf
  refine ⟨wandered.kept sized ?_, fun t here outside => ?_⟩
  · change s.file.cursor + buf.length ≤ max (max (s.file.cursor + buf.length) _) _
    omega
  · refine (wandered.foreign t fun c member i inside => ?_).trans (same t here)
    have sector : (written.fs.volume home).dataSector c i = (s₀.fs.volume home).dataSector c i := by
      change (s.fs.volume home).dataSector c i = _
      simp only [Volume.dataSector, FileSystem.volume_setup, details]
    rw [sector]
    refine outside c member i ?_
    rw [FileSystem.volume_setup, ← details]
    exact inside

/-- Whatever a write does, it does to clusters of the chain. -/
theorem Sized.write (sized : Sized home cs s)
    (place : cs = [] ∨ s.file.currentCluster ∈ cs ∨ Verging home cs s) {buf : List UInt8}
    (addressable : buf.length < 2 ^ s.fs.usizeBits)
    (few : FileSystem.divCeil buf.length s.fs.fs.clusterLength < 2 ^ 32) :
    (File.write buf s).2 = s ∨ ∃ added, Kept home (cs ++ added) (File.write buf s).2 ∧
      Volume.Spares home (cs ++ added) (s.fs.volume home) ((File.write buf s).2.fs.volume home) := by
  by_cases nonempty : buf = []
  · subst nonempty
    exact Or.inl rfl
  by_cases enabled : s.file.openOptions.write = true
  · obtain ⟨_, pos, _⟩ := sized.toHolds.clusterLength
    have capacity : s.capacity < 2 ^ 64 :=
      lt_of_le_of_lt (Nat.mul_le_mul_right _ sized.clusters) sized.toHolds.capacity
    by_cases fits : s.file.cursor + buf.length < 2 ^ 64
    · refine Or.inr ?_
      rw [write_eq sized.layout.mounted enabled nonempty capacity fits]
      obtain ⟨r, s₁, added, run₁, kept₁, details₁, same₁, cursor₁, outcome⟩ :=
        sized.reserve place (List.length_pos_iff.mpr nonempty) addressable few
      refine ⟨added, ?_⟩
      rcases outcome with ⟨rfl, room⟩ | rfl
      · rw [Exec.bind_of_ok run₁, Exec.bind_of_ok (updateDataLength_run (by omega))]
        exact kept₁.putAll details₁ same₁ cursor₁ (List.length_pos_iff.mpr nonempty) room
      · rw [Exec.bind_of_error run₁]
        exact ⟨kept₁, fun t here _ => same₁ t here⟩
    · rw [write_overflows sized.layout.mounted enabled nonempty capacity (Nat.le_of_not_lt fits)]
      exact Or.inl rfl
  · left
    rw [Bool.not_eq_true] at enabled
    rw [write_refused sized.layout.mounted enabled nonempty]

end FileSession

namespace FileSystem

variable {size n : Nat} {home : Nat → CacheKind} {cs : List Nat}

/-- Walking the FAT goes along the chain and fails at its end. -/
theorem walkFat_leads (k : Nat) : ∀ {fs : FileSystem size n} {j c : Nat}, fs.Sound home →
    Layout size home fs.setup → (fs.volume home).Threads cs → (∀ c ∈ cs, (fs.volume home).InHeap c) →
    cs[j]? = some c →
    FileSystem.Leads home (walkFat k c) fs
      (match cs[j + k]? with
        | some d => .ok d
        | none => .error (.error .endOfFatChain)) (fs.volume home) := by
  induction k with
  | zero =>
    intro fs j c sound layout threads inHeap here
    rw [Nat.add_zero, here]
    exact .of_run rfl sound rfl
  | succ k ih =>
    intro fs j c sound layout threads inHeap here
    have fetched := Fat.nextClusterInFatChain_leads sound layout (inHeap c (List.mem_of_getElem? here))
    rw [threads.next_eq here] at fetched
    rw [walkFat]
    refine fetched.bind fun fs' sound' shown' => ?_
    have setup : fs'.setup = fs.setup := congrArg Volume.setup shown'
    cases follow : cs[j + 1]? with
    | some d =>
      have rest := ih sound' (setup ▸ layout) (shown' ▸ threads) (shown' ▸ inHeap) follow
      rw [shown', Nat.add_assoc, Nat.add_comm 1 k] at rest
      exact rest
    | none =>
      have past : cs[j + (k + 1)]? = none := by
        rw [List.getElem?_eq_none_iff] at follow ⊢
        omega
      rw [past]
      exact .of_run rfl sound' shown'

end FileSystem

namespace FileSession

open File

variable {size n : Nat} {home : Nat → CacheKind} {s s' : FileSession size n} {cs added : List Nat} {k : Nat}

/-- The ways in which a seek to `c` ends. Only at the very end of a chain is the
handle not inside a cluster of it: a contiguous chain is left behind, and a FAT
chain leads nowhere. -/
inductive Sought (cs : List Nat) (c : Nat) (s s' : FileSession size n) : Except (Fault ExFatError) Unit → Prop where
  | outOfRange (same : s' = s) : Sought cs c s s' (.error (.error .seekOutOfRange))
  | nowhere (empty : cs = []) (remaining : s'.file.remainingBytesInCluster = 0) : Sought cs c s s' (.ok ())
  | inside (inside : Inside s'.fs.fs.clusterLength cs s'.file) (cursor : s'.file.cursor = c) : Sought cs c
    s s' (.ok ())
  | ended (first : Nat) (chain : s.file.chain = .contiguous first cs.length)
    (final : c = cs.length * s.fs.fs.clusterLength) (current : s'.file.currentCluster = first + cs.length)
    (cursor : s'.file.cursor = c) : Sought cs c s s' (.ok ())
  | stuck (first last clusterCount : Nat) (chain : s.file.chain = .fat first last clusterCount)
    (current : s'.file.currentCluster = s.file.currentCluster) : Sought cs c s s' (.error (.error .endOfFatChain))

/-- A handle that has been sent elsewhere. -/
theorem Sized.sent (sized : Sized home cs s) (sound : s'.fs.Sound home)
    (volume : s'.fs.volume home = s.fs.volume home) (moved : Moved s.file s'.file)
    (cursor : s'.file.cursor ≤ s.file.details.validDataLength) : Sized home cs s' := by
  have length : s'.fs.fs.clusterLength = s.fs.fs.clusterLength :=
    congrArg (fun v : Volume size => v.setup.details.clusterLength) volume
  refine ⟨sized.toHolds.rewritten sound (volume ▸ .refl _) moved.chain (by rw [moved.details]), ?_, ?_, ?_⟩
  · rw [moved.details, length]
    exact sized.clusters
  · rw [moved.details]
    exact sized.valid
  · rw [moved.details]
    exact cursor.trans sized.valid

theorem updateRemainingBytesInCluster_run (pos : 0 < s.fs.fs.clusterLength) :
    updateRemainingBytesInCluster s = (.ok (), ⟨s.fs, { s.file with
      remainingBytesInCluster := s.fs.fs.clusterLength - s.file.cursor % s.fs.fs.clusterLength }⟩) := by
  have small := Nat.mod_lt s.file.cursor pos
  rw [updateRemainingBytesInCluster, Exec.bind_of_ok (Exec.get_apply s), Exec.bind_of_ok (minus_of_le small.le s)]
  rfl

/-- `seek` to a place inside the valid data. -/
theorem seek_eq (mounted : s.fs.isMounted = true) {c : Nat} (near : c ≤ s.file.details.validDataLength) :
    File.seek c s = (match s.file.chain with
      | .empty => modifyFile fun file => { file with
        currentCluster := file.details.firstCluster, remainingBytesInCluster := 0 }
      | .contiguous first _ => u32 (first + c / s.fs.fs.clusterLength % 2 ^ 32) >>= fun currentCluster =>
        modifyFile (fun file => { file with currentCluster }) >>= fun _ => updateRemainingBytesInCluster
      | .fat first _ _ => onFs (FileSystem.walkFat (c / s.fs.fs.clusterLength % 2 ^ 32) first) >>=
        fun currentCluster =>
        modifyFile (fun file => { file with currentCluster }) >>= fun _ => updateRemainingBytesInCluster :
          ExFat (FileSession size n) Unit) ⟨s.fs, { s.file with cursor := c }⟩ := by
  rw [File.seek, Exec.bind_of_ok (mount_run mounted), Exec.bind_of_ok (Exec.get_apply s),
    if_neg (Nat.not_lt.mpr near)]
  cases chain : s.file.chain <;>
  · refine (Exec.bind_of_ok (modifyFile_apply _ s)).trans ((Exec.bind_of_ok (Exec.get_apply _)).trans ?_)
    simp only [chain]

theorem Sized.seek (sized : Sized home cs s) (c : Nat) :
    ∃ r s', File.seek c s = (r, s') ∧ Sized home cs s' ∧ s'.fs.volume home = s.fs.volume home ∧
      Moved s.file s'.file ∧ Sought cs c s s' r := by
  by_cases far : s.file.details.validDataLength < c
  · have run : File.seek c s = (.error (.error .seekOutOfRange), s) := by
      rw [File.seek, Exec.bind_of_ok (mount_run sized.layout.mounted), Exec.bind_of_ok (Exec.get_apply s), if_pos far]
      rfl
    exact ⟨_, s, run, sized, rfl, .refl _, .outOfRange rfl⟩
  have near : c ≤ s.file.details.validDataLength := Nat.le_of_not_lt far
  obtain ⟨_, pos, _⟩ := sized.toHolds.clusterLength
  have sent : ∀ file : File, Moved s.file file → file.cursor ≤ s.file.details.validDataLength →
      Sized home cs ⟨s.fs, file⟩ := fun file moved cursor => sized.sent sized.sound rfl moved cursor
  have capacity : c ≤ cs.length * s.fs.fs.clusterLength := near.trans (sized.valid.trans sized.fits)
  have index : c / s.fs.fs.clusterLength ≤ cs.length := Nat.div_le_of_le_mul (by rwa [Nat.mul_comm])
  rw [seek_eq sized.layout.mounted near]
  have lists := sized.owns.lists
  cases chain : s.file.chain with
  | empty =>
    rw [chain] at lists
    exact ⟨_, _, rfl, sent _ ⟨rfl, rfl, rfl⟩ near, rfl, ⟨rfl, rfl, rfl⟩, .nowhere lists rfl⟩
  | contiguous first clusterCount =>
    have bound := sized.toHolds.bound
      (show Allocator.hintOf s.file.chain = some (first + clusterCount) by rw [chain]; rfl)
    rw [chain] at lists
    obtain ⟨some_, listed⟩ := lists
    have length : cs.length = clusterCount := by rw [listed, List.length_range']
    rw [length] at index capacity
    have run : (u32 (first + c / s.fs.fs.clusterLength % 2 ^ 32) >>= fun currentCluster =>
        modifyFile (fun file => { file with currentCluster }) >>= fun _ => updateRemainingBytesInCluster :
          ExFat (FileSession size n) Unit) ⟨s.fs, { s.file with cursor := c }⟩ =
        (.ok (), ⟨s.fs, { s.file with
          cursor := c, currentCluster := first + c / s.fs.fs.clusterLength
          remainingBytesInCluster := s.fs.fs.clusterLength - c % s.fs.fs.clusterLength }⟩) := by
      rw [Nat.mod_eq_of_lt (by omega), Exec.bind_of_ok (u32_of_lt (by omega) _),
        Exec.bind_of_ok (modifyFile_apply _ _)]
      exact updateRemainingBytesInCluster_run pos
    refine ⟨_, _, run, sent _ ⟨rfl, rfl, rfl⟩ near, rfl, ⟨rfl, rfl, rfl⟩, ?_⟩
    by_cases within : c / s.fs.fs.clusterLength < clusterCount
    · refine .inside ⟨?_, rfl⟩ rfl
      change cs[c / s.fs.fs.clusterLength]? = some (first + c / s.fs.fs.clusterLength)
      rw [listed, List.getElem?_range' within, Nat.one_mul]
    · have final : c = clusterCount * s.fs.fs.clusterLength := by
        have reach := Nat.div_mul_le_self c s.fs.fs.clusterLength
        rw [show c / s.fs.fs.clusterLength = clusterCount by omega] at reach
        omega
      refine .ended first (by rw [length]; exact chain) (by rw [length]; exact final) ?_ rfl
      change first + c / s.fs.fs.clusterLength = first + cs.length
      omega
  | fat first last clusterCount =>
    have threads := sized.owns.threads (sized.owns.stored first last clusterCount chain)
    rw [chain] at lists
    have few := length_le_heap sized.owns.distinct sized.owns.inHeap
    have ids := sized.layout.ids
    simp only [Fat.clusterLen, FileSystem.volume_setup] at ids few
    have head : cs[0]? = some first := by rw [← List.head?_eq_getElem?, lists.1]
    have walked := leads_onFs (s := ⟨s.fs, { s.file with cursor := c }⟩)
      (FileSystem.walkFat_leads (c / s.fs.fs.clusterLength) sized.sound sized.layout threads sized.owns.inHeap head)
    rw [Nat.zero_add] at walked
    obtain ⟨⟨fs₁, f₁⟩, run₁, sound₁, shown₁⟩ := walked
    obtain ⟨volume₁, file₁⟩ := Prod.mk.inj shown₁
    obtain ⟨touched, rfl⟩ : ∃ touched, f₁ = { s.file with cursor := c, touched := touched } := ⟨_, eq_of_bare file₁⟩
    have length₁ : fs₁.fs.clusterLength = s.fs.fs.clusterLength :=
      congrArg (fun v : Volume size => v.setup.details.clusterLength) volume₁
    rw [Nat.mod_eq_of_lt (by omega)]
    cases found : cs[c / s.fs.fs.clusterLength]? with
    | none =>
      rw [found] at run₁
      exact ⟨_, _, Exec.bind_of_error run₁, sized.sent sound₁ volume₁ ⟨rfl, rfl, rfl⟩ near, volume₁, ⟨rfl, rfl, rfl⟩,
        .stuck first last clusterCount chain rfl⟩
    | some d =>
      rw [found] at run₁
      have rest : (modifyFile (fun file => { file with currentCluster := d }) >>= fun _ =>
          updateRemainingBytesInCluster : ExFat (FileSession size n) Unit)
            ⟨fs₁, { s.file with cursor := c, touched }⟩ =
          (.ok (), ⟨fs₁, { s.file with
            cursor := c, touched, currentCluster := d
            remainingBytesInCluster := fs₁.fs.clusterLength - c % fs₁.fs.clusterLength }⟩) := by
        rw [Exec.bind_of_ok (modifyFile_apply _ _)]
        exact updateRemainingBytesInCluster_run (length₁ ▸ pos)
      refine ⟨_, _, (Exec.bind_of_ok run₁).trans rest, sized.sent sound₁ volume₁ ⟨rfl, rfl, rfl⟩ near, volume₁,
        ⟨rfl, rfl, rfl⟩, .inside ⟨?_, rfl⟩ rfl⟩
      dsimp only
      rw [length₁]
      exact found

end FileSession

end ExFatSlim
