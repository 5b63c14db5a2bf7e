import ExFatSlim.FileTracking
import ExFatSlim.Splice

namespace ExFatSlim

namespace FileSession

open File

variable {size n : Nat} {home : Nat → CacheKind} {s s' s'' : FileSession size n} {cs : List Nat} {k l : Nat}

/-- A later state of a handle that has gone along its chain: whatever was
written was written to sectors of the chain, and the cursor is at most `k`
bytes further. The cursor need not be where the handle is in the chain. -/
structure Wanders (home : Nat → CacheKind) (cs : List Nat) (k : Nat) (s s' : FileSession size n) : Prop where
  holds : Holds home cs s'
  place : s'.file.currentCluster ∈ cs
  volume : Volume.Rewritten home (s.fs.volume home) (s'.fs.volume home)
  foreign : ∀ t, (∀ c ∈ cs, ∀ i < s.fs.fs.sectorsPerCluster, t ≠ (s.fs.volume home).dataSector c i) →
    (s'.fs.volume home).sectors t = (s.fs.volume home).sectors t
  moved : Moved s.file s'.file
  onward : s.file.cursor ≤ s'.file.cursor
  cursor : s'.file.cursor ≤ s.file.cursor + k

theorem Wanders.refl (holds : Holds home cs s) (place : s.file.currentCluster ∈ cs) : Wanders home cs 0 s s :=
  ⟨holds, place, .refl _, fun _ _ => rfl, .refl _, le_rfl, le_rfl⟩

theorem Wanders.trans (first : Wanders home cs k s s') (second : Wanders home cs l s' s'') :
    Wanders home cs (k + l) s s'' where
  holds := second.holds
  place := second.place
  volume := first.volume.trans second.volume
  foreign t outside := by
    have setup : s'.fs.setup = s.fs.setup := first.volume.setup
    have sectors : s'.fs.fs.sectorsPerCluster = s.fs.fs.sectorsPerCluster :=
      congrArg (fun u : Setup => u.details.sectorsPerCluster) setup
    have same : ∀ c i, (s'.fs.volume home).dataSector c i = (s.fs.volume home).dataSector c i := by
      intro c i
      simp only [Volume.dataSector, first.volume.setup]
    rw [second.foreign t, first.foreign t outside]
    intro c member i inside
    rw [same]
    exact outside c member i (sectors ▸ inside)
  moved := first.moved.trans second.moved
  onward := first.onward.trans second.onward
  cursor := by
    have early := first.cursor
    have late := second.cursor
    omega

theorem Wanders.mono (wanders : Wanders home cs k s s') (more : k ≤ l) : Wanders home cs l s s' :=
  { wanders with cursor := wanders.cursor.trans (Nat.add_le_add_left more _) }

/-- A step that changes neither the volume nor the chain. -/
theorem Wanders.of_same (holds : Holds home cs s) (sound : s'.fs.Sound home)
    (volume : s'.fs.volume home = s.fs.volume home) (moved : Moved s.file s'.file)
    (place : s'.file.currentCluster ∈ cs) (cursor : s'.file.cursor = s.file.cursor + k) :
    Wanders home cs k s s' where
  holds := by
    refine holds.rewritten sound ?_ moved.chain (by rw [moved.details])
    rw [volume]
    exact .refl _
  place := place
  volume := by
    rw [volume]
    exact .refl _
  foreign t _ := by rw [volume]
  moved := moved
  onward := by rw [cursor]; exact Nat.le_add_right _ _
  cursor := cursor.le

/-- The handle turns to another cluster of its chain. -/
theorem Wanders.of_turn (holds : Holds home cs s) (sound : s'.fs.Sound home)
    (volume : s'.fs.volume home = s.fs.volume home) {c r : Nat} (place : c ∈ cs)
    (file : s'.file.bare = { s.file.bare with currentCluster := c, remainingBytesInCluster := r }) :
    Wanders home cs 0 s s' := by
  have file := eq_of_bare file
  refine .of_same holds sound volume ?_ ?_ ?_
  · rw [file]
    exact ⟨rfl, rfl, rfl⟩
  · rw [file]
    exact place
  · rw [file]
    rfl

/-- One sector of the current cluster is written. -/
theorem Wanders.of_store (holds : Holds home cs s) (place : s.file.currentCluster ∈ cs) (sound : s'.fs.Sound home)
    {b : Block size} (volume : s'.fs.volume home = (s.fs.volume home).store
      ((s.fs.volume home).dataSector s.file.currentCluster (s.file.cursor % s.fs.fs.clusterLength / size)) b)
    (file : s'.file.bare = s.file.bare) : Wanders home cs 0 s s' := by
  have file := eq_of_bare file
  have here : home ((s.fs.volume home).dataSector s.file.currentCluster
      (s.file.cursor % s.fs.fs.clusterLength / size)) = .data :=
    holds.owns.data _ place _ (holds.offset _)
  have rewritten : Volume.Rewritten home (s.fs.volume home) (s'.fs.volume home) := by
    rw [volume]
    exact Volume.store_rewritten _ here b
  refine ⟨holds.rewritten sound rewritten (by rw [file]; rfl) (by rw [file]; rfl), by rw [file]; exact place,
    rewritten, fun t outside => ?_, ?_, by rw [file]; exact le_rfl, by rw [file]; exact le_rfl⟩
  · rw [volume, Volume.store_sectors_ne _ (outside _ place _ (holds.offset _))]
  · rw [file]
    exact ⟨rfl, rfl, rfl⟩

/-- Whatever comes out of the first step, the rest goes on from where it ended. -/
theorem Wanders.bind {α β : Type} {m : ExFat (FileSession size n) α} {f : α → ExFat (FileSession size n) β}
    (first : Wanders home cs k s (m s).2) (less : k ≤ l)
    (rest : ∀ a s', m s = (.ok a, s') → Wanders home cs k s s' → Wanders home cs l s (f a s').2) :
    Wanders home cs l s ((m >>= f) s).2 := by
  rw [Exec.bind_apply]
  rcases run : m s with ⟨e | a, s'⟩
  · rw [run] at first
    exact first.mono less
  · rw [run] at first
    exact rest a s' run first

end FileSession

namespace File

open FileSession

variable {size n : Nat} {home : Nat → CacheKind} {s : FileSession size n} {cs : List Nat}

/-- The next cluster is the next one of the chain, if there is one. -/
theorem nextClusterIfRequired_wanders (holds : Holds home cs s) (place : s.file.currentCluster ∈ cs) :
    Wanders home cs 0 s (nextClusterIfRequired s).2 := by
  by_cases used : s.file.remainingBytesInCluster = 0
  · obtain ⟨j, here⟩ := List.getElem?_of_mem place
    cases follow : cs[j + 1]? with
    | some c =>
      obtain ⟨s', run, sound, shown⟩ := nextClusterIfRequired_move holds here used follow
      rw [run]
      exact .of_turn holds sound (Prod.mk.inj shown).1 (List.mem_of_getElem? follow) (Prod.mk.inj shown).2
    | none =>
      obtain ⟨s', run, sound, shown⟩ := nextClusterIfRequired_stuck holds here used follow
      rw [run]
      exact .of_turn holds sound (Prod.mk.inj shown).1 place (Prod.mk.inj shown).2
  · obtain ⟨s', run, sound, shown⟩ := nextClusterIfRequired_stay holds.sound used
    rw [run]
    exact .of_turn holds sound (Prod.mk.inj shown).1 place (Prod.mk.inj shown).2

theorem moveFileCursor_wanders (holds : Holds home cs s) (place : s.file.currentCluster ∈ cs) (k : Nat) :
    Wanders home cs k s (moveFileCursor k s).2 ∧
      ∀ s', moveFileCursor k s = (.ok (), s') → s'.file.cursor = s.file.cursor + k := by
  by_cases fits : s.file.cursor + k < 2 ^ 64
  · have moved : ∀ r, Wanders home cs k s ⟨s.fs, { s.file with
        cursor := s.file.cursor + k, remainingBytesInCluster := r }⟩ :=
      fun r => .of_same holds holds.sound rfl ⟨rfl, rfl, rfl⟩ place rfl
    by_cases enough : k % 2 ^ 32 ≤ s.file.remainingBytesInCluster
    · have run : moveFileCursor k s = (.ok (), ⟨s.fs, { s.file with
          cursor := s.file.cursor + k
          remainingBytesInCluster := s.file.remainingBytesInCluster - k % 2 ^ 32 }⟩) := by
        rw [moveFileCursor, Exec.bind_of_ok (Exec.get_apply s), Exec.bind_of_ok (u64_of_lt fits s),
          Exec.bind_of_ok (modifyFile_apply _ s), Exec.bind_of_ok (minus_of_le enough _)]
        rfl
      rw [run]
      refine ⟨moved _, fun s' same => ?_⟩
      cases same
      rfl
    · have run : moveFileCursor k s = (.error .panic, ⟨s.fs, { s.file with cursor := s.file.cursor + k }⟩) := by
        rw [moveFileCursor, Exec.bind_of_ok (Exec.get_apply s), Exec.bind_of_ok (u64_of_lt fits s),
          Exec.bind_of_ok (modifyFile_apply _ s), Exec.bind_of_error (minus_of_lt (Nat.lt_of_not_le enough) _)]
      rw [run]
      exact ⟨moved _, fun s' same => by cases same⟩
  · have run : moveFileCursor k s = (.error .panic, s) := by
      rw [moveFileCursor, Exec.bind_of_ok (Exec.get_apply s),
        Exec.bind_of_error (u64_of_le (Nat.le_of_not_lt fits) s)]
    rw [run]
    exact ⟨(Wanders.refl holds place).mono (Nat.zero_le k), fun s' same => by cases same⟩

theorem writePartialSector_wanders (holds : Holds home cs s) (place : s.file.currentCluster ∈ cs)
    (buf : List UInt8) :
    Wanders home cs buf.length s (writePartialSector buf s).2 ∧
      ∀ len s', writePartialSector buf s = (.ok len, s') → len ≤ buf.length ∧ s'.file.cursor =
        s.file.cursor + len := by
  have still := (Wanders.refl holds place).mono (Nat.zero_le buf.length)
  by_cases nonempty : buf = []
  · subst nonempty
    have run : writePartialSector [] s = (.ok 0, s) := rfl
    rw [run]
    refine ⟨still, fun len s' same => ?_⟩
    cases same
    exact ⟨le_rfl, rfl⟩
  · by_cases partly : 0 < s.file.cursor % size ∨ buf.length < size
    · obtain ⟨s₁, run, sound, volume, file⟩ := writePartialSector_stores holds place nonempty partly
      have stored := Wanders.of_store holds place sound volume file
      have cursor₁ : s₁.file.cursor = s.file.cursor := by rw [eq_of_bare file]; rfl
      obtain ⟨moved, cursor⟩ := moveFileCursor_wanders stored.holds stored.place
        (min buf.length (size - s.file.cursor % size))
      rw [run, Exec.bind_apply]
      rcases outcome : moveFileCursor (min buf.length (size - s.file.cursor % size)) s₁ with ⟨e | u, s₂⟩
      · rw [outcome] at moved
        exact ⟨(stored.trans moved).mono (by omega), fun len s' same => by cases same⟩
      · rw [outcome] at moved
        refine ⟨(stored.trans moved).mono (by omega), fun len s' same => ?_⟩
        cases same
        exact ⟨Nat.min_le_left _ _, by rw [cursor _ outcome, cursor₁]⟩
    · rw [not_or] at partly
      have run : writePartialSector buf s = (.ok 0, s) := writePartialSector_skips holds place (by omega) (by omega)
      rw [run]
      refine ⟨still, fun len s' same => ?_⟩
      cases same
      exact ⟨Nat.zero_le _, rfl⟩

theorem writeBlocks_wanders (blocks : List (Block size)) : ∀ {s : FileSession size n}, Holds home cs s →
    s.file.currentCluster ∈ cs → Wanders home cs (blocks.length * size) s (writeBlocks blocks s).2 := by
  induction blocks with
  | nil =>
    intro s holds place
    exact (Wanders.refl holds place).mono (Nat.zero_le _)
  | cons block rest ih =>
    intro s holds place
    rw [writeBlocks, List.length_cons, Nat.succ_mul]
    refine (nextClusterIfRequired_wanders holds place).bind (Nat.zero_le _) fun _ s₁ _ turned => ?_
    rw [Exec.bind_of_ok (getCurrentSectorId_run turned.holds turned.place)]
    have here := turned.holds.owns.data _ turned.place _ (turned.holds.offset s₁.file.cursor)
    obtain ⟨s₂, run₂, sound₂, shown₂⟩ := leads_write turned.holds.sound here block
    have stored := Wanders.of_store turned.holds turned.place sound₂ (Prod.mk.inj shown₂).1 (Prod.mk.inj shown₂).2
    rw [Exec.bind_of_ok run₂]
    have moves : Wanders home cs (rest.length * size + size) s₂
        ((moveFileCursor size >>= fun _ => writeBlocks rest : ExFat _ Unit) s₂).2 := by
      refine (moveFileCursor_wanders stored.holds stored.place size).1.bind (by omega) fun _ s₃ _ moved => ?_
      exact (moved.trans (ih moved.holds moved.place)).mono (by omega)
    exact ((turned.trans stored).trans moves).mono (by omega)

theorem writeBytes_wanders (holds : Holds home cs s) (place : s.file.currentCluster ∈ cs) (buf : List UInt8) :
    Wanders home cs buf.length s (writeBytes buf s).2 := by
  rw [writeBytes]
  refine (nextClusterIfRequired_wanders holds place).bind (Nat.zero_le _) fun _ s₁ _ turned => ?_
  refine Wanders.mono (k := 0 + buf.length) (turned.trans ?_) (by omega)
  obtain ⟨partly, put⟩ := writePartialSector_wanders turned.holds turned.place buf
  rw [Exec.bind_apply]
  rcases run₂ : writePartialSector buf s₁ with ⟨e | len, s₂⟩
  · rw [run₂] at partly
    exact partly
  · rw [run₂] at partly
    obtain ⟨most, cursor₂⟩ := put len s₂ run₂
    have first : Wanders home cs len s₁ s₂ := { partly with cursor := cursor₂.le }
    dsimp only
    split
    · have split := Nat.div_add_mod' (buf.drop len).length size
      have total : len + ((blocksOf size (buf.drop len)).length * size +
          (remainderOf size (buf.drop len)).length) = buf.length := by
        rw [remainderOf, List.length_drop, blocksOf, List.length_map, List.length_range]
        rw [List.length_drop] at split ⊢
        omega
      rw [← total]
      refine first.trans ((writeBlocks_wanders _ first.holds first.place).bind (Nat.le_add_right _ _)
        fun _ s₃ _ blocks => blocks.trans ?_)
      rw [Exec.bind_pure_state _ fun _ => ()]
      exact (writePartialSector_wanders blocks.holds blocks.place (remainderOf size (buf.drop len))).1
    · exact partly

/-- The end of a round of `read`, when the bytes are there. -/
theorem readOn_wanders {m : ExFat (FileSession size n) (List UInt8)} {p : FileSession size n → Prop}
    [DecidablePred p] (out : List UInt8) (holds : Holds home cs s) (place : s.file.currentCluster ∈ cs) {k : Nat}
    (few : s.file.cursor + k ≤ max s.file.cursor s.file.details.dataLength)
    (rest : ∀ {s : FileSession size n}, Holds home cs s → s.file.currentCluster ∈ cs →
      Wanders home cs (s.file.details.dataLength - s.file.cursor) s (m s).2) :
    Wanders home cs (s.file.details.dataLength - s.file.cursor) s
      ((moveFileCursor k >>= fun _ => get >>= fun s => if p s then pure out else m : ExFat _ _) s).2 := by
  obtain ⟨moved, cursor⟩ := moveFileCursor_wanders holds place k
  refine (moved.mono (by omega)).bind le_rfl fun _ s' run _ => ?_
  rw [run] at moved
  rw [Exec.bind_of_ok (Exec.get_apply s')]
  split
  · exact moved.mono (by omega)
  · have later := rest moved.holds moved.place
    rw [cursor s' run, moved.moved.details] at later
    exact (moved.trans later).mono (by omega)

theorem readIn_wanders (len rounds : Nat) : ∀ {s : FileSession size n} (out : List UInt8), Holds home cs s →
    s.file.currentCluster ∈ cs →
    Wanders home cs (s.file.details.dataLength - s.file.cursor) s (readIn len rounds out s).2 := by
  induction rounds with
  | zero =>
    intro s out holds place
    exact (Wanders.refl holds place).mono (Nat.zero_le _)
  | succ rounds ih =>
    intro s out holds place
    rw [readIn, Exec.bind_of_ok (Exec.get_apply s)]
    refine (nextClusterIfRequired_wanders holds place).bind (Nat.zero_le _) fun _ s₁ _ turned => ?_
    have cursor₁ : s₁.file.cursor = s.file.cursor := Nat.le_antisymm turned.cursor turned.onward
    have details₁ := turned.moved.details
    rw [Exec.bind_of_ok (getCurrentSectorId_run turned.holds turned.place), Exec.bind_of_ok (Exec.get_apply s₁)]
    have onward : ∀ (bytes : List UInt8) {s₂ : FileSession size n},
        bytes.length ≤ s.file.details.dataLength - s.file.cursor → Wanders home cs 0 s₁ s₂ →
        Wanders home cs (s.file.details.dataLength - s.file.cursor) s
          ((moveFileCursor bytes.length >>= fun _ => get >>= fun t =>
            if (out ++ bytes).length = len ∨ t.file.eof = true then pure (out ++ bytes)
            else readIn len rounds (out ++ bytes) : ExFat _ _) s₂).2 := by
      intro bytes s₂ few looked
      have both := turned.trans looked
      have cursor₂ : s₂.file.cursor = s.file.cursor := Nat.le_antisymm both.cursor both.onward
      have tail := readOn_wanders (p := fun t => (out ++ bytes).length = len ∨ t.file.eof = true) (out ++ bytes)
        both.holds both.place (k := bytes.length) ?_ (ih (out ++ bytes))
      · rw [cursor₂, both.moved.details] at tail
        exact (both.trans tail).mono (by omega)
      · rw [cursor₂, both.moved.details]
        omega
    split
    · obtain ⟨b, fs', run, _, served, _⟩ := FileSystem.onCache_read turned.holds.sound .data
        ((s₁.fs.volume home).dataSector s₁.file.currentCluster (s₁.file.cursor % s₁.fs.fs.clusterLength / size))
      have looked := FileSession.onFs_of_run run
      rw [Exec.bind_of_ok looked, Exec.bind_of_ok (Exec.pure_apply _ _)]
      refine onward (b.slice _ _) ?_ (.of_same turned.holds served.sound served.volume (.refl _) turned.place rfl)
      rw [Block.length_slice]
      omega
    · rw [Exec.bind_of_ok (Exec.pure_apply _ _)]
      refine onward (List.replicate _ 0) ?_ (.refl turned.holds turned.place)
      rw [List.length_replicate]
      omega

end File

end ExFatSlim
