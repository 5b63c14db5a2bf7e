import ExFatSlim.HandleRuns

namespace ExFatSlim

open Exec

/-- A later state of a file system on the same target. -/
def FileSystem.SameWidth {size n : Nat} (fs fs' : FileSystem size n) : Prop := fs'.usizeBits = fs.usizeBits

instance {size n : Nat} : Std.Refl (FileSystem.SameWidth : FileSystem size n → FileSystem size n → Prop) where
  refl _ := rfl

instance {size n : Nat} :
    Trans (FileSystem.SameWidth : FileSystem size n → FileSystem size n → Prop) FileSystem.SameWidth
      FileSystem.SameWidth where
  trans first second := Eq.trans second first

theorem FileSystem.onCache_sameWidth {size n : Nat} {α : Type} (k : CacheKind) (m : ExFat (CacheIo size n) α) :
    Respects FileSystem.SameWidth (onCache k m) := by
  intro fs
  cases k <;> rfl

theorem Fat.nextClusterInFatChain_sameWidth {size n : Nat} (c : Nat) :
    Respects FileSystem.SameWidth (nextClusterInFatChain c : ExFat (FileSystem size n) _) := by
  have sector : Respects FileSystem.SameWidth (getSectorId c : ExFat (FileSystem size n) Nat) := by
    refine .bind .get fun fs => ?_
    split
    · exact u32_respects _
    · exact .raise _
  refine .bind (.assert _) fun _ => .bind sector fun sectorId => ?_
  exact .bind (FileSystem.onCache_sameWidth _ _) fun b => .ite (.pure _) (.pure _)

namespace File

open FileSession

variable {size n : Nat} {home : Nat → CacheKind} {s s' : FileSession size n} {cs : List Nat}

/-- One round of the loop of `read` with room for `left` more bytes: the bytes that it adds. -/
def readRound (left : Nat) : ExFat (FileSession size n) (List UInt8) := do
  let file := (← get).file
  let fileRemainder := file.details.dataLength - file.cursor
  let validRemainder := file.details.validDataLength - file.cursor
  nextClusterIfRequired
  let sectorId ← getCurrentSectorId
  let s ← get
  let sectorOffset := s.file.cursor % s.fs.fs.clusterLength % size
  let chunkBytes := min (min (size - sectorOffset) fileRemainder) left
  let bytes ← if 0 < validRemainder then do
      let chunkBytes := min chunkBytes (validRemainder % 2 ^ s.fs.usizeBits)
      let block ← onFs (FileSystem.onCache .data (SlotCache.read sectorId))
      pure (block.slice sectorOffset chunkBytes)
    else pure (List.replicate chunkBytes 0)
  moveFileCursor bytes.length
  pure bytes

/-- The loop of `read` is made of its rounds. -/
theorem readIn_succ (len rounds : Nat) (out : List UInt8) :
    (readIn len (rounds + 1) out : ExFat (FileSession size n) _) =
    readRound (len - out.length) >>= fun bytes => get >>= fun s =>
      if (out ++ bytes).length = len ∨ s.file.eof then pure (out ++ bytes) else readIn len rounds (out ++ bytes) := by
  rw [readIn, readRound]
  simp only [Exec.bind_assoc]
  refine congrArg _ (funext fun s => congrArg _ (funext fun _ => congrArg _ (funext fun sectorId => congrArg _
    (funext fun s' => ?_))))
  split <;>
  · simp only [Exec.bind_assoc]
    rfl

/-- A later state of a handle that is as far as it was. -/
structure Still (s s' : FileSession size n) : Prop where
  details : s'.file.details = s.file.details
  cursor : s'.file.cursor = s.file.cursor
  usizeBits : s'.fs.usizeBits = s.fs.usizeBits

instance : Std.Refl (Still : FileSession size n → FileSession size n → Prop) where
  refl _ := ⟨rfl, rfl, rfl⟩

instance : Trans (Still : FileSession size n → FileSession size n → Prop) Still Still where
  trans first second := ⟨second.details.trans first.details, second.cursor.trans first.cursor,
    second.usizeBits.trans first.usizeBits⟩

theorem onFs_still {α : Type} {m : ExFat (FileSystem size n) α} (same : Respects FileSystem.SameWidth m) :
    Respects Still (onFs m : ExFat (FileSession size n) α) :=
  same.zoom fun _ _ width => ⟨rfl, rfl, width⟩

theorem still_turns : Turns (Still : FileSession size n → FileSession size n → Prop) where
  follow _ := onFs_still (Fat.nextClusterInFatChain_sameWidth _)
  turn details cursor _ := .modify fun s => ⟨details s.file, cursor s.file, rfl⟩

theorem moveFileCursor_ok {k : Nat} (run : moveFileCursor k s = (.ok (), s')) :
    s'.file.details = s.file.details ∧ s'.file.cursor = s.file.cursor + k ∧ s'.fs = s.fs := by
  by_cases fits : s.file.cursor + k < 2 ^ 64
  · rw [moveFileCursor, Exec.bind_of_ok (Exec.get_apply s), Exec.bind_of_ok (u64_of_lt fits s),
      Exec.bind_of_ok (modifyFile_apply _ s)] at run
    by_cases enough : k % 2 ^ 32 ≤ s.file.remainingBytesInCluster
    · rw [Exec.bind_of_ok (minus_of_le enough _)] at run
      cases run
      exact ⟨rfl, rfl, rfl⟩
    · rw [Exec.bind_of_error (minus_of_lt (Nat.lt_of_not_le enough) _)] at run
      cases run
  · rw [moveFileCursor, Exec.bind_of_ok (Exec.get_apply s),
      Exec.bind_of_error (u64_of_le (Nat.le_of_not_lt fits) s)] at run
    cases run

/-- What a round does to the handle, wherever it is and whatever the device does. -/
structure RoundOf (left : Nat) (bytes : List UInt8) (s s' : FileSession size n) : Prop where
  details : s'.file.details = s.file.details
  cursor : s'.file.cursor = s.file.cursor + bytes.length
  usizeBits : s'.fs.usizeBits = s.fs.usizeBits
  fits : bytes.length ≤ left
  inFile : bytes.length ≤ s.file.details.dataLength - s.file.cursor
  valid : s.file.cursor < s.file.details.validDataLength →
    bytes.length ≤ (s.file.details.validDataLength - s.file.cursor) % 2 ^ s.fs.usizeBits
  stuck : 0 < size → 0 < left → s.file.cursor < s.file.details.dataLength → bytes = [] →
    s.file.cursor < s.file.details.validDataLength ∧
      (s.file.details.validDataLength - s.file.cursor) % 2 ^ s.fs.usizeBits = 0

theorem readRound_ok {left : Nat} {bytes : List UInt8} (run : readRound left s = (.ok bytes, s')) :
    RoundOf left bytes s s' := by
  obtain ⟨_, _, got, run⟩ := Exec.bind_eq_ok.mp run
  cases got
  obtain ⟨_, s₁, turn, run⟩ := Exec.bind_eq_ok.mp run
  obtain ⟨sectorId, s₂, sector, run⟩ := Exec.bind_eq_ok.mp run
  obtain ⟨_, _, got, run⟩ := Exec.bind_eq_ok.mp run
  cases got
  have still : Still s s₂ :=
    Trans.trans ((nextClusterIfRequired_respects still_turns).settles _ _ _ turn)
      ((getCurrentSectorId_respects (R := Still)).settles _ _ _ sector)
  dsimp only at run
  rw [still.usizeBits] at run
  generalize aligned : s₂.file.cursor % s₂.fs.fs.clusterLength % size = offset at run
  have small : 0 < size → offset < size := fun pos => aligned ▸ Nat.mod_lt _ pos
  -- the bytes are in the cache or zeros, and then the cursor moves
  obtain ⟨s₃, kept, count, move⟩ : ∃ s₃, Still s₂ s₃ ∧ bytes.length =
      (if 0 < s.file.details.validDataLength - s.file.cursor then
        min (min (min (size - offset) (s.file.details.dataLength - s.file.cursor)) left)
          ((s.file.details.validDataLength - s.file.cursor) % 2 ^ s.fs.usizeBits)
      else min (min (size - offset) (s.file.details.dataLength - s.file.cursor)) left) ∧
      moveFileCursor bytes.length s₃ = (.ok (), s') := by
    split at run
    · rename_i valid
      obtain ⟨block, s₃, fetched, run⟩ := Exec.bind_eq_ok.mp run
      obtain ⟨_, _, got, run⟩ := Exec.bind_eq_ok.mp run
      cases got
      obtain ⟨_, s₄, move, last⟩ := Exec.bind_eq_ok.mp run
      cases last
      rw [if_pos valid, Block.length_slice]
      rw [Block.length_slice] at move
      exact ⟨s₃, (onFs_still (FileSystem.onCache_sameWidth _ _)).settles _ _ _ fetched, rfl, move⟩
    · rename_i none_
      obtain ⟨_, _, got, run⟩ := Exec.bind_eq_ok.mp run
      cases got
      obtain ⟨_, s₄, move, last⟩ := Exec.bind_eq_ok.mp run
      cases last
      rw [if_neg none_, List.length_replicate]
      rw [List.length_replicate] at move
      exact ⟨s₂, Std.Refl.refl _, rfl, move⟩
  obtain ⟨details, cursor, fs⟩ := moveFileCursor_ok move
  have both : Still s s₃ := Trans.trans still kept
  have width : s'.fs.usizeBits = s.fs.usizeBits := by rw [fs, both.usizeBits]
  refine ⟨details.trans both.details, by rw [cursor, both.cursor], width, ?_, ?_, fun before => ?_,
    fun pos some_ more none_ => ?_⟩
  · split at count <;> omega
  · split at count <;> omega
  · rw [if_pos (Nat.sub_pos_of_lt before)] at count
    omega
  · have inside := small pos
    rw [none_, List.length_nil] at count
    by_cases before : s.file.cursor < s.file.details.validDataLength
    · rw [if_pos (Nat.sub_pos_of_lt before)] at count
      exact ⟨before, by omega⟩
    · rw [if_neg (by omega)] at count
      omega

/-- The loop of `read` in the buffer of the caller, whose first `bytesRead` bytes are read. -/
def readIntoIn : Nat → Nat → List UInt8 → ExFat (FileSession size n) (Nat × List UInt8)
  | 0, _, _ => Exec.diverge
  | rounds + 1, bytesRead, buf => do
    let bytes ← readRound (buf.length - bytesRead)
    let buf := buf.take bytesRead ++ bytes ++ buf.drop (bytesRead + bytes.length)
    let bytesRead := bytesRead + bytes.length
    if bytesRead = buf.length ∨ (← get).file.eof then pure (bytesRead, buf) else readIntoIn rounds bytesRead buf

/-- `read` with the buffer of the caller: the number of bytes read, and the buffer after it. -/
def readInto (buf : List UInt8) : ExFat (FileSession size n) (Option Nat × List UInt8) := do
  onFs FileSystem.mount
  let file := (← get).file
  if !file.openOptions.read then Exec.raise .readNotEnabled
  if file.eof then return (none, buf)
  if buf.isEmpty then return (some 0, buf)
  let (bytesRead, buf) ← readIntoIn buf.length 0 buf
  pure (some bytesRead, buf)

/-- The buffer after `bytes` were read into it. -/
def filled (buf bytes : List UInt8) : List UInt8 := bytes ++ buf.drop bytes.length

/-- What the caller has after a read: a number of bytes, or none at the end of the file, and the buffer. -/
def delivered (buf : List UInt8) : Option (List UInt8) → Option Nat × List UInt8
  | some bytes => (some bytes.length, filled buf bytes)
  | none => (none, buf)

/-- The bytes that are read stay read. -/
theorem readIn_grows {len : Nat} (rounds : Nat) : ∀ {out bytes : List UInt8} {s s' : FileSession size n},
    readIn len rounds out s = (.ok bytes, s') → out.length ≤ bytes.length := by
  induction rounds with
  | zero => exact fun run => by cases run
  | succ rounds ih =>
    intro out bytes s s' run
    rw [readIn_succ] at run
    obtain ⟨part, s₁, _, run⟩ := Exec.bind_eq_ok.mp run
    rw [Exec.bind_of_ok (Exec.get_apply s₁)] at run
    have more : out.length ≤ (out ++ part).length := by
      rw [List.length_append]
      exact Nat.le_add_right _ _
    split at run
    · cases run
      exact more
    · exact more.trans (ih run)

theorem readIntoIn_eq (rounds : Nat) : ∀ (out rest : List UInt8) (s : FileSession size n),
    readIntoIn rounds out.length (out ++ rest) s = (readIn (out ++ rest).length rounds out >>= fun bytes =>
      pure (bytes.length, bytes ++ rest.drop (bytes.length - out.length))) s := by
  induction rounds with
  | zero => exact fun out rest s => rfl
  | succ rounds ih =>
    intro out rest s
    have left : (out ++ rest).length - out.length = rest.length := by
      rw [List.length_append, Nat.add_sub_cancel_left]
    rw [readIntoIn, readIn_succ, Exec.bind_assoc, left, Exec.bind_apply, Exec.bind_apply]
    rcases run : readRound rest.length s with ⟨e | bytes, s₁⟩
    · rfl
    · have fits := (readRound_ok run).fits
      have buf : (out ++ rest).take out.length ++ bytes ++ (out ++ rest).drop (out.length + bytes.length) =
          (out ++ bytes) ++ rest.drop bytes.length := by
        rw [List.take_left', List.drop_length_add_append]
        rfl
      have length : (out ++ rest).length = ((out ++ bytes) ++ rest.drop bytes.length).length := by
        simp only [List.length_append, List.length_drop]
        omega
      have count : out.length + bytes.length = (out ++ bytes).length := List.length_append.symm
      dsimp only
      rw [buf, length, count, Exec.bind_of_ok (Exec.get_apply s₁), Exec.bind_assoc,
        Exec.bind_of_ok (Exec.get_apply s₁)]
      split
      · rw [Exec.bind_of_ok (Exec.pure_apply _ s₁), ← count, Nat.add_sub_cancel_left]
      · rw [ih, Exec.bind_apply, Exec.bind_apply]
        rcases later : readIn ((out ++ bytes) ++ rest.drop bytes.length).length rounds (out ++ bytes) s₁ with
          ⟨e | final, s₂⟩
        · rfl
        · have grows := readIn_grows rounds later
          rw [← count] at grows ⊢
          have dropped : bytes.length + (final.length - (out.length + bytes.length)) = final.length - out.length := by
            omega
          dsimp only
          rw [List.drop_drop, dropped]

theorem readInto_eq (buf : List UInt8) (s : FileSession size n) :
    readInto buf s = (read buf.length >>= fun result => pure (delivered buf result)) s := by
  rw [readInto, read, Exec.bind_assoc]
  rcases mounted : onFs FileSystem.mount s with ⟨e | u, s₁⟩
  · rw [Exec.bind_of_error mounted, Exec.bind_of_error mounted]
  · rw [Exec.bind_of_ok mounted, Exec.bind_of_ok mounted, Exec.bind_of_ok (Exec.get_apply s₁), Exec.bind_assoc,
      Exec.bind_of_ok (Exec.get_apply s₁)]
    dsimp only
    cases enabled : s₁.file.openOptions.read with
    | false => rfl
    | true =>
      cases ended : s₁.file.eof with
      | true => rfl
      | false =>
        cases buf with
        | nil => rfl
        | cons b rest =>
          have loop := readIntoIn_eq (b :: rest).length [] (b :: rest) s₁
          simp only [List.nil_append, List.length_nil, Nat.sub_zero] at loop
          simp only [Bool.not_true, Bool.false_eq_true, if_false, List.isEmpty_cons, List.length_cons,
            Nat.succ_ne_zero, Exec.bind_assoc]
          rw [List.length_cons] at loop
          rw [Exec.bind_apply, loop, Exec.bind_apply, Exec.bind_apply]
          rcases readIn (rest.length + 1) (rest.length + 1) [] s₁ with ⟨e | bytes, s₂⟩ <;> rfl

theorem readIn_count {len : Nat} (rounds : Nat) :
    ∀ {out bytes : List UInt8} {s s' : FileSession size n}, out.length < len →
    s.file.cursor < s.file.details.dataLength → readIn len rounds out s = (.ok bytes, s') →
    bytes.length = min len (out.length + (s.file.details.dataLength - s.file.cursor)) := by
  induction rounds with
  | zero => exact fun _ _ run => by cases run
  | succ rounds ih =>
    intro out bytes s s' room before run
    rw [readIn_succ] at run
    obtain ⟨part, s₁, round, run⟩ := Exec.bind_eq_ok.mp run
    have did := readRound_ok round
    have fits := did.fits
    have inFile := did.inFile
    have cursor₁ := did.cursor
    rw [Exec.bind_of_ok (Exec.get_apply s₁)] at run
    split at run
    · rename_i finished
      cases run
      rw [List.length_append] at finished ⊢
      rw [eof, decide_eq_true_eq, did.details] at finished
      omega
    · rename_i more
      rw [List.length_append, eof, decide_eq_true_eq, did.details] at more
      have later := ih (by rw [List.length_append]; omega) (by rw [did.details]; omega) run
      rw [List.length_append, did.details] at later
      omega

/-- What `read` returns, wherever the handle is and whatever the device does. -/
theorem read_count {len : Nat} {result : Option (List UInt8)} (run : read len s = (.ok result, s')) :
    (result = none ∧ s.file.details.dataLength ≤ s.file.cursor) ∨ ∃ bytes, result = some bytes ∧
      s.file.cursor < s.file.details.dataLength ∧ bytes.length =
        min len (s.file.details.dataLength - s.file.cursor) := by
  obtain ⟨_, s₁, mounted, run⟩ := Exec.bind_eq_ok.mp run
  obtain ⟨fs, _, rfl⟩ := Exec.zoom_eq mounted
  obtain ⟨_, _, got, run⟩ := Exec.bind_eq_ok.mp run
  cases got
  dsimp only at run
  cases enabled : s.file.openOptions.read with
  | false =>
    rw [enabled] at run
    cases run
  | true =>
    rw [enabled] at run
    by_cases ended : s.file.eof = true
    · simp only [ended] at run
      cases run
      exact Or.inl ⟨rfl, of_decide_eq_true ended⟩
    · have before : s.file.cursor < s.file.details.dataLength := by
        rw [eof, decide_eq_true_eq] at ended
        omega
      rw [Bool.not_eq_true] at ended
      simp only [ended, Bool.not_true, Bool.false_eq_true, if_false] at run
      by_cases nothing : len = 0
      · rw [if_pos nothing] at run
        cases run
        exact Or.inr ⟨[], rfl, before, by rw [nothing, Nat.zero_min]; rfl⟩
      · rw [if_neg nothing] at run
        obtain ⟨bytes, s₂, loop, last⟩ := Exec.bind_eq_ok.mp run
        cases last
        have empty : ([] : List UInt8).length < len := Nat.pos_of_ne_zero nothing
        have count := readIn_count (s := ⟨fs, s.file⟩) len empty before loop
        rw [List.length_nil, Nat.zero_add] at count
        exact Or.inr ⟨bytes, rfl, before, count⟩

/-- How many bytes a round reads, where `usize` has `bits` bits. -/
def chunkLength (size bits : Nat) (file : File) (left : Nat) : Nat :=
  if 0 < file.details.validDataLength - file.cursor then
    min (min (min (size - file.cursor % size) (file.details.dataLength - file.cursor)) left)
      ((file.details.validDataLength - file.cursor) % 2 ^ bits)
  else min (min (size - file.cursor % size) (file.details.dataLength - file.cursor)) left

theorem chunkLength_le (size bits : Nat) (file : File) (left : Nat) :
    chunkLength size bits file left ≤ size - file.cursor % size ∧
      chunkLength size bits file left ≤ file.details.dataLength - file.cursor ∧
        chunkLength size bits file left ≤ left := by
  unfold chunkLength
  split <;> omega

/-- The bytes before the end of the valid data are read as they are stored, the others as zeros. -/
def contentByte (v : Volume size) (cs : List Nat) (file : File) (i : Nat) : UInt8 :=
  if i < file.details.validDataLength then v.fileByte cs i else 0

end File

namespace FileSession

open File

variable {size n : Nat} {home : Nat → CacheKind} {s s' s'' : FileSession size n} {cs : List Nat}
  {bytes more : List UInt8}

/-- A handle that `read` may be called on. -/
structure Readable (home : Nat → CacheKind) (cs : List Nat) (s : FileSession size n) :
    Prop extends Holds home cs s where
  enabled : s.file.openOptions.read = true
  clusters : FileSystem.divCeil s.file.details.dataLength s.fs.fs.clusterLength ≤ cs.length
  valid : s.file.details.validDataLength ≤ s.file.details.dataLength
  position : Positioned s.fs.fs.clusterLength cs s.file

/-- A later state in which the bytes at the cursor were read. -/
structure HasRead (home : Nat → CacheKind) (cs : List Nat) (bytes : List UInt8)
    (s s' : FileSession size n) : Prop where
  readable : Readable home cs s'
  volume : s'.fs.volume home = s.fs.volume home
  moved : Moved s.file s'.file
  cursor : s'.file.cursor = s.file.cursor + bytes.length
  content : ∀ i (inside : i < bytes.length), bytes[i] = contentByte (s.fs.volume home) cs s.file (s.file.cursor + i)

theorem Readable.hasRead_nil (readable : Readable home cs s) : HasRead home cs [] s s :=
  ⟨readable, rfl, .refl _, rfl, fun i none_ => absurd none_ (Nat.not_lt_zero i)⟩

theorem HasRead.trans (first : HasRead home cs bytes s s') (second : HasRead home cs more s' s'') :
    HasRead home cs (bytes ++ more) s s'' where
  readable := second.readable
  volume := second.volume.trans first.volume
  moved := first.moved.trans second.moved
  cursor := by rw [second.cursor, first.cursor, List.length_append, Nat.add_assoc]
  content i inside := by
    by_cases early : i < bytes.length
    · rw [List.getElem_append_left early, first.content i early]
    · have later := second.content (i - bytes.length) (by rw [List.length_append] at inside; omega)
      have place : s.file.cursor + bytes.length + (i - bytes.length) = s.file.cursor + i := by omega
      rw [List.getElem_append_right (by omega), later, contentByte, contentByte, first.moved.details, first.volume,
        first.cursor, place]

/-- The handle after it was placed somewhere in its chain. -/
theorem Readable.placed (readable : Readable home cs s) (sound : s'.fs.Sound home)
    (volume : s'.fs.volume home = s.fs.volume home)
    (moved : Moved s.file s'.file) (denotes : Denotes s.fs.fs.clusterLength cs s'.file) : Readable home cs s' where
  toHolds := readable.toHolds.rewritten sound (volume ▸ .refl _) moved.chain (by rw [moved.details])
  enabled := moved.options ▸ readable.enabled
  clusters := by
    have length : s'.fs.fs.clusterLength = s.fs.fs.clusterLength :=
      congrArg (fun v : Volume size => v.setup.details.clusterLength) volume
    rw [moved.details, length]
    exact readable.clusters
  valid := moved.details ▸ readable.valid
  position := by
    have length : s'.fs.fs.clusterLength = s.fs.fs.clusterLength :=
      congrArg (fun v : Volume size => v.setup.details.clusterLength) volume
    exact Or.inr (length ▸ denotes)

/-- What is in the file is in its clusters. -/
theorem Readable.fits (readable : Readable home cs s) :
    s.file.details.dataLength ≤ cs.length * s.fs.fs.clusterLength :=
  (divCeil_le readable.toHolds.clusterLength.2.1).mp readable.clusters

/-- The bytes of the sector of the cursor are bytes of the file. -/
theorem Holds.fileByte_sector (holds : Holds home cs s) (inside : Inside s.fs.fs.clusterLength cs s.file) {i : Nat}
    (within : s.file.cursor % size + i < size) :
    ((s.fs.volume home).sectors ((s.fs.volume home).dataSector s.file.currentCluster
      (s.file.cursor % s.fs.fs.clusterLength / size))).byte (s.file.cursor % size + i) =
        (s.fs.volume home).fileByte cs (s.file.cursor + i) := by
  have split := Nat.div_add_mod s.file.cursor size
  have place : s.file.cursor + i = size * (s.file.cursor / size) + (s.file.cursor % size + i) := by omega
  rw [(holds.sector inside).2.2, Volume.fileByte, place, Nat.mul_add_div holds.layout.pos, Nat.div_eq_of_lt within,
    Nat.add_zero,
    Nat.mul_add_mod, Nat.mod_eq_of_lt within]

/-- The end of a round, when the bytes are there: the cursor moves over them. -/
theorem Readable.readOn (readable : Readable home cs s) (inside : Inside s.fs.fs.clusterLength cs s.file)
    (within : s.file.cursor % size + bytes.length ≤ size)
    (short : s.file.cursor + bytes.length ≤ s.file.details.dataLength)
    (content : ∀ i (inside : i < bytes.length),
      bytes[i] = contentByte (s.fs.volume home) cs s.file (s.file.cursor + i))
    (sound : s'.fs.Sound home) (volume : s'.fs.volume home = s.fs.volume home) (file : s'.file.bare = s.file.bare) :
    ∃ s'', (moveFileCursor bytes.length >>= fun _ => pure bytes : ExFat _ _) s' = (.ok bytes, s'') ∧
      HasRead home cs bytes s s'' := by
  obtain ⟨length, pos, bound⟩ := readable.toHolds.clusterLength
  have file := eq_of_bare file
  have fits := readable.fits
  have capacity := readable.toHolds.capacity
  have room := sector_room readable.layout.pos readable.layout.sectorsPerCluster s.file.cursor
  change s.file.cursor % (size * s.fs.fs.sectorsPerCluster) + (size - s.file.cursor % size) ≤
    size * s.fs.fs.sectorsPerCluster at room
  rw [← length] at room
  have small := Nat.mod_lt s.file.cursor readable.layout.pos
  have enough : bytes.length ≤ s'.file.remainingBytesInCluster := by
    rw [file]
    change bytes.length ≤ s.file.remainingBytesInCluster
    rw [inside.2]
    omega
  have run := moveFileCursor_run (k := bytes.length) (s := s') (by rw [file]; change s.file.cursor + _ < _; omega)
    (by omega) enough
  have moved : Moved s.file { s'.file with
      cursor := s'.file.cursor + bytes.length, remainingBytesInCluster :=
        s'.file.remainingBytesInCluster - bytes.length } := by
    rw [file]
    exact ⟨rfl, rfl, rfl⟩
  refine ⟨_, Exec.bind_of_ok run, readable.placed sound volume moved ?_, volume, moved, ?_, content⟩
  · rw [file] at enough ⊢
    by_cases none_ : bytes.length = 0
    · rw [none_]
      exact Or.inl inside
    · exact (inside.move pos (Nat.pos_of_ne_zero none_) enough).denotes
  · rw [file]
    rfl

/-- A round reads the bytes at the cursor, as many as it may. -/
theorem Readable.round (readable : Readable home cs s) (before : s.file.cursor < s.file.details.dataLength)
    (left : Nat) :
    ∃ bytes s', readRound left s = (.ok bytes, s') ∧ HasRead home cs bytes s s' ∧
      bytes.length = chunkLength size s.fs.usizeBits s.file left := by
  obtain ⟨length, _⟩ := readable.toHolds.clusterLength
  have fits := readable.fits
  have denotes : Denotes s.fs.fs.clusterLength cs s.file := readable.position.resolve_left (by
    rintro ⟨rfl, _⟩
    rw [List.length_nil, Nat.zero_mul] at fits
    omega)
  obtain ⟨s₁, run₁, sound₁, volume₁, moved₁, cursor₁, inside₁⟩ := readable.toHolds.turn denotes (by omega)
  have turned := readable.placed sound₁ volume₁ moved₁ (Or.inl inside₁)
  have length₁ : s₁.fs.fs.clusterLength = s.fs.fs.clusterLength :=
    congrArg (fun v : Volume size => v.setup.details.clusterLength) volume₁
  have bits₁ : s₁.fs.usizeBits = s.fs.usizeBits := congrArg (fun v : Volume size => v.setup.usizeBits) volume₁
  rw [← length₁] at inside₁
  have member := (turned.toHolds.sector inside₁).1
  have offset : s₁.file.cursor % s₁.fs.fs.clusterLength % size = s₁.file.cursor % size := by
    rw [length₁, length, Nat.mod_mul_right_mod]
  have start : HasRead home cs [] s s₁ :=
    ⟨turned, volume₁, moved₁, cursor₁, fun i none_ => absurd none_ (Nat.not_lt_zero i)⟩
  have same : chunkLength size s.fs.usizeBits s.file left = chunkLength size s.fs.usizeBits s₁.file left := by
    rw [chunkLength, chunkLength, moved₁.details, cursor₁]
  obtain ⟨most, most', _⟩ := chunkLength_le size s.fs.usizeBits s₁.file left
  have small := Nat.mod_lt s₁.file.cursor readable.layout.pos
  rw [← moved₁.details, ← cursor₁] at before
  rw [readRound, Exec.bind_of_ok (Exec.get_apply s), Exec.bind_of_ok run₁,
    Exec.bind_of_ok (getCurrentSectorId_run turned.toHolds member), Exec.bind_of_ok (Exec.get_apply s₁),
      offset, bits₁, same,
    ← moved₁.details, ← cursor₁]
  by_cases valid : 0 < s₁.file.details.validDataLength - s₁.file.cursor
  · have chunk : chunkLength size s.fs.usizeBits s₁.file left = min (min (min (size - s₁.file.cursor % size)
        (s₁.file.details.dataLength - s₁.file.cursor)) left)
          ((s₁.file.details.validDataLength - s₁.file.cursor) % 2 ^ s.fs.usizeBits) := if_pos valid
    have near : chunkLength size s.fs.usizeBits s₁.file left ≤ s₁.file.details.validDataLength - s₁.file.cursor :=
      chunk ▸ (Nat.min_le_right _ _).trans (Nat.mod_le _ _)
    have here := turned.owns.data _ member _ (turned.toHolds.offset s₁.file.cursor)
    obtain ⟨s₂, run₂, sound₂, shown₂⟩ := leads_onFs (s := s₁) (FileSystem.leads_read sound₁ here)
    rw [if_pos valid, Exec.bind_of_ok run₂, ← chunk]
    generalize stored : ((s₁.fs.volume home).sectors ((s₁.fs.volume home).dataSector s₁.file.currentCluster
      (s₁.file.cursor % s₁.fs.fs.clusterLength / size))) = block
    obtain ⟨bytes, same⟩ : ∃ bytes,
      bytes = block.slice (s₁.file.cursor % size) (chunkLength size s.fs.usizeBits s₁.file left) :=
      ⟨_, rfl⟩
    have count : bytes.length = chunkLength size s.fs.usizeBits s₁.file left := by rw [same, Block.length_slice]
    have content : ∀ i (inside : i < bytes.length),
        bytes[i] = contentByte (s₁.fs.volume home) cs s₁.file (s₁.file.cursor + i) := by
      intro i inside
      rw [contentByte, if_pos (by omega), ← turned.toHolds.fileByte_sector inside₁ (by omega), stored]
      simp [same, Block.slice]
    obtain ⟨s', run', read⟩ :=
      turned.readOn inside₁ (by omega) (by omega) content sound₂ (Prod.mk.inj shown₂).1 (Prod.mk.inj shown₂).2
    rw [← same]
    exact ⟨bytes, s', run', start.trans read, count⟩
  · have chunk : chunkLength size s.fs.usizeBits s₁.file left = min (min (size - s₁.file.cursor % size)
        (s₁.file.details.dataLength - s₁.file.cursor)) left := if_neg valid
    rw [if_neg valid, ← chunk]
    obtain ⟨bytes, same⟩ : ∃ bytes,
      bytes = List.replicate (chunkLength size s.fs.usizeBits s₁.file left) (0 : UInt8) := ⟨_, rfl⟩
    have count : bytes.length = chunkLength size s.fs.usizeBits s₁.file left := by rw [same, List.length_replicate]
    have content : ∀ i (inside : i < bytes.length),
        bytes[i] = contentByte (s₁.fs.volume home) cs s₁.file (s₁.file.cursor + i) := by
      intro i inside
      rw [contentByte, if_neg (by omega)]
      simp [same]
    obtain ⟨s', run', read⟩ := turned.readOn inside₁ (by omega) (by omega) content sound₁ rfl rfl
    rw [← same]
    exact ⟨bytes, s', run', start.trans read, count⟩

theorem sub_mod_of_le {a b k : Nat} (within : k ≤ a % b) : (a - k) % b = a % b - k := by
  by_cases none_ : b = 0
  · simp [none_]
  have split := Nat.div_add_mod a b
  have small := Nat.mod_lt a (Nat.pos_of_ne_zero none_)
  have place : a - k = b * (a / b) + (a % b - k) := by omega
  rw [place, Nat.mul_add_mod, Nat.mod_eq_of_lt (by omega)]

/-- The valid bytes that are left are too many for `usize`, and what is left of their number in
it does not fill the buffer. -/
def Stalls (s : FileSession size n) (len : Nat) : Prop :=
  2 ^ s.fs.usizeBits ≤ s.file.details.validDataLength - s.file.cursor ∧
    (s.file.details.validDataLength - s.file.cursor) % 2 ^ s.fs.usizeBits < len

/-- The heads of the loop of `read`: the bytes that are read so far, and the state. -/
inductive Rounds (len : Nat) (s : FileSession size n) : List UInt8 → FileSession size n → Prop
  | start : Rounds len s [] s
  | next {out bytes : List UInt8} {s' s'' : FileSession size n} : Rounds len s out s' →
      readRound (len - out.length) s' = (.ok bytes, s'') → ¬ ((out ++ bytes).length = len ∨ s''.file.eof = true) →
      Rounds len s (out ++ bytes) s''

/-- A place at the head of the loop from which every round goes on. -/
structure Flowing (len : Nat) (out : List UInt8) (s : FileSession size n) : Prop where
  room : out.length < len
  before : s.file.cursor < s.file.details.dataLength
  flows : ¬ Stalls s (len - out.length)

theorem Flowing.round {len : Nat} {out : List UInt8} (flowing : Flowing len out s)
    (run : readRound (len - out.length) s = (.ok bytes, s')) (pos : 0 < size) :
    bytes ≠ [] ∧ ((out ++ bytes).length = len ∨ s'.file.eof = true ∨ Flowing len (out ++ bytes) s') := by
  have did := readRound_ok run
  have room := flowing.room
  have before := flowing.before
  have fits := did.fits
  have inFile := did.inFile
  have cursor' := did.cursor
  have flows := flowing.flows
  have width : 0 < 2 ^ s.fs.usizeBits := Nat.two_pow_pos _
  rw [Stalls, not_and_or, Nat.not_le, Nat.not_lt] at flows
  have some_ : bytes ≠ [] := by
    intro none_
    obtain ⟨valid, multiple⟩ := did.stuck pos (by omega) before none_
    have split := Nat.div_add_mod (s.file.details.validDataLength - s.file.cursor) (2 ^ s.fs.usizeBits)
    rcases flows with few | enough
    · rw [Nat.mod_eq_of_lt few] at multiple
      omega
    · omega
  refine ⟨some_, ?_⟩
  by_cases full : (out ++ bytes).length = len
  · exact Or.inl full
  by_cases ended : s'.file.eof = true
  · exact Or.inr (Or.inl ended)
  rw [List.length_append] at full
  rw [eof, decide_eq_true_eq, did.details] at ended
  refine Or.inr (Or.inr ⟨by rw [List.length_append]; omega, by rw [did.details]; omega, ?_⟩)
  rw [Stalls, did.details, did.usizeBits, List.length_append, cursor']
  rintro ⟨many, short⟩
  have less : s.file.details.validDataLength - (s.file.cursor + bytes.length) =
      s.file.details.validDataLength - s.file.cursor - bytes.length := by omega
  have rest := sub_mod_of_le (did.valid (by omega))
  rw [less] at many short
  omega

theorem Rounds.flowing {len : Nat} (pos : 0 < size) (start : Flowing len [] s) {out : List UInt8}
    (rounds : Rounds len s out s') :
    Flowing len out s' := by
  induction rounds with
  | start => exact start
  | next _ round more ih =>
    rw [not_or] at more
    exact ((ih.round round pos).2.resolve_left more.1).resolve_left more.2

/-- From a place where every round goes on, the loop reads all that it can. -/
theorem Readable.readIn {len : Nat} (rounds : Nat) :
    ∀ {out : List UInt8} {s : FileSession size n}, Readable home cs s →
    Flowing len out s → len - out.length ≤ rounds → ∃ bytes s', File.readIn len rounds out s =
      (.ok (out ++ bytes), s') ∧
      HasRead home cs bytes s s' := by
  induction rounds with
  | zero =>
    intro out s _ flowing none_
    have room := flowing.room
    omega
  | succ rounds ih =>
    intro out s readable flowing enough
    obtain ⟨bytes, s₁, run₁, read₁, _⟩ := readable.round flowing.before (len - out.length)
    obtain ⟨some_, outcome⟩ := flowing.round run₁ readable.layout.pos
    have one := List.length_pos_iff.mpr some_
    rw [readIn_succ, Exec.bind_of_ok run₁, Exec.bind_of_ok (Exec.get_apply s₁)]
    by_cases finished : (out ++ bytes).length = len ∨ s₁.file.eof = true
    · rw [if_pos finished]
      exact ⟨bytes, s₁, rfl, read₁⟩
    · rw [if_neg finished]
      have flowing₁ := (or_assoc.mpr outcome).resolve_left finished
      obtain ⟨more, s', run', read'⟩ := ih read₁.readable flowing₁ (by rw [List.length_append]; omega)
      rw [List.append_assoc] at run'
      exact ⟨bytes ++ more, s', run', read₁.trans read'⟩

/-- The loop comes to a place where it does nothing any more. -/
theorem Readable.readIn_stalls {len : Nat} (rounds : Nat) :
    ∀ {out : List UInt8} {s : FileSession size n}, Readable home cs s →
    out.length < len → s.file.cursor < s.file.details.dataLength → Stalls s (len - out.length) →
    (File.readIn len rounds out s).1 = .error .diverge := by
  induction rounds with
  | zero => exact fun _ _ _ _ => rfl
  | succ rounds ih =>
    intro out s readable room before stalls
    obtain ⟨bytes, s₁, run₁, read₁, _⟩ := readable.round before (len - out.length)
    have did := readRound_ok run₁
    obtain ⟨many, short⟩ := stalls
    have width : 0 < 2 ^ s.fs.usizeBits := Nat.two_pow_pos _
    have within := did.valid (by omega)
    have most := Nat.mod_le (s.file.details.validDataLength - s.file.cursor) (2 ^ s.fs.usizeBits)
    have small := Nat.mod_lt (s.file.details.validDataLength - s.file.cursor) width
    have split := Nat.div_add_mod (s.file.details.validDataLength - s.file.cursor) (2 ^ s.fs.usizeBits)
    have valid := readable.valid
    have cursor₁ := did.cursor
    have ahead : s₁.file.cursor < s₁.file.details.dataLength := by
      rw [did.details]
      omega
    have more : ¬ ((out ++ bytes).length = len ∨ s₁.file.eof = true) := by
      rw [not_or, List.length_append, eof, decide_eq_true_eq]
      omega
    rw [readIn_succ, Exec.bind_of_ok run₁, Exec.bind_of_ok (Exec.get_apply s₁), if_neg more]
    refine ih read₁.readable (by rw [List.length_append]; omega) ahead ?_
    have less : s.file.details.validDataLength - (s.file.cursor + bytes.length) =
        s.file.details.validDataLength - s.file.cursor - bytes.length := by omega
    rw [Stalls, did.details, did.usizeBits, List.length_append, cursor₁, less, sub_mod_of_le within]
    have whole := Nat.mul_le_mul_left (2 ^ s.fs.usizeBits) (Nat.div_pos many width)
    rw [Nat.mul_one] at whole
    exact ⟨by omega, by omega⟩

theorem Readable.read_started (readable : Readable home cs s)
    (before : s.file.cursor < s.file.details.dataLength) {len : Nat}
    (some_ : 0 < len) : File.read len s = (File.readIn len len [] >>= fun bytes => pure (some bytes)) s := by
  have ended : s.file.eof = false := decide_eq_false (Nat.not_le.mpr before)
  rw [File.read, Exec.bind_of_ok (mount_run readable.layout.mounted), Exec.bind_of_ok (Exec.get_apply s)]
  dsimp only
  rw [readable.enabled, ended]
  simp only [Bool.not_true, Bool.false_eq_true, if_false, Nat.ne_of_gt some_]

theorem Readable.read_at_end (readable : Readable home cs s) (ended : s.file.details.dataLength ≤ s.file.cursor)
    (len : Nat) :
    File.read len s = (.ok none, s) := by
  have eof : s.file.eof = true := decide_eq_true ended
  rw [File.read, Exec.bind_of_ok (mount_run readable.layout.mounted), Exec.bind_of_ok (Exec.get_apply s)]
  dsimp only
  rw [readable.enabled, eof]
  rfl

/-- A read that does not stall returns the bytes at the cursor. -/
theorem Readable.read (readable : Readable home cs s) (before : s.file.cursor < s.file.details.dataLength) {len : Nat}
    (flows : ¬ Stalls s len) : ∃ bytes s', File.read len s = (.ok (some bytes), s') ∧ HasRead home cs bytes s s' := by
  by_cases some_ : 0 < len
  · have flowing : Flowing len [] s := ⟨some_, before, flows⟩
    obtain ⟨bytes, s', run, read⟩ := readable.readIn len flowing (Nat.sub_le _ _)
    refine ⟨bytes, s', ?_, read⟩
    rw [readable.read_started before some_, Exec.bind_of_ok run]
    rfl
  · have nothing : len = 0 := by omega
    subst nothing
    have ended : s.file.eof = false := decide_eq_false (Nat.not_le.mpr before)
    refine ⟨[], s, ?_, readable.hasRead_nil⟩
    rw [File.read, Exec.bind_of_ok (mount_run readable.layout.mounted), Exec.bind_of_ok (Exec.get_apply s)]
    dsimp only
    rw [readable.enabled, ended]
    rfl

/-- What a read into `buf` leaves. -/
structure ReadsExactly (home : Nat → CacheKind) (cs : List Nat) (buf : List UInt8) (s : FileSession size n)
    (count : Option Nat)
    (buf' : List UInt8) (s' : FileSession size n) : Prop where
  readable : Readable home cs s'
  volume : s'.fs.volume home = s.fs.volume home
  moved : Moved s.file s'.file
  ended : count = none ↔ s.file.details.dataLength ≤ s.file.cursor
  number : ∀ k, count = some k → k = min buf.length (s.file.details.dataLength - s.file.cursor)
  cursor : s'.file.cursor = s.file.cursor + count.getD 0
  length : buf'.length = buf.length
  read : ∀ i (inside : i < buf'.length), i < count.getD 0 →
    buf'[i] = contentByte (s.fs.volume home) cs s.file (s.file.cursor + i)
  rest : ∀ i, count.getD 0 ≤ i → buf'[i]? = buf[i]?

theorem filled_length {buf bytes : List UInt8} (fits : bytes.length ≤ buf.length) :
    (filled buf bytes).length = buf.length := by
  rw [filled, List.length_append, List.length_drop]
  omega

/-- `read` returns the bytes along the chain, the zeros after the valid data, and nothing at the end of the file. -/
theorem readInto_exact (readable : Readable home cs s) (wide : s.fs.usizeBits = 64) (buf : List UInt8) :
    ∃ count buf' s', readInto buf s = (.ok (count, buf'), s') ∧ ReadsExactly home cs buf s count buf' s' := by
  rw [readInto_eq]
  by_cases ended : s.file.details.dataLength ≤ s.file.cursor
  · refine ⟨none, buf, s, Exec.bind_of_ok (readable.read_at_end ended buf.length), readable, rfl, .refl _,
      iff_of_true rfl ended,
      fun k none_ => (by cases none_), rfl, rfl, fun i _ none_ => absurd none_ (Nat.not_lt_zero i), fun i _ => rfl⟩
  · have before := Nat.lt_of_not_le ended
    have flows : ¬ Stalls s buf.length := by
      rintro ⟨many, _⟩
      have valid := readable.valid
      have fits := readable.fits
      have capacity := readable.toHolds.capacity
      rw [wide] at many
      omega
    obtain ⟨bytes, s', run, read⟩ := readable.read before flows
    rcases read_count run with ⟨none_, _⟩ | ⟨_, same, _, count⟩
    · cases none_
    · cases same
      refine ⟨some bytes.length, filled buf bytes, s', Exec.bind_of_ok run, read.readable, read.volume, read.moved,
        iff_of_false (by simp) ended, ?_, read.cursor, filled_length (by omega), ?_, ?_⟩
      · rintro k ⟨⟩
        exact count
      · intro i inside early
        rw [← read.content i early]
        simp only [filled]
        exact List.getElem_append_left early
      · intro i late
        change bytes.length ≤ i at late
        rw [filled, List.getElem?_append_right late, List.getElem?_drop, Nat.add_sub_cancel' late]

theorem readable_of_opened {fs : FileSystem size n} (fit : fs.Fit home) {details : FileDetails}
    (stores : (fs.volume home).Stores home details cs) {options : OpenOptions} (enabled : options.read = true)
    (append : options.append = false) :
    Readable home cs ⟨fs, FileSystem.opened details cs fs.fs.clusterLength options⟩ where
  toHolds := (fit.kept stores options).toHolds
  enabled := enabled
  clusters := stores.count.ge
  valid := stores.valid
  position := (FileSystem.opened_positioned_iff fit.layout stores options).mpr (Or.inl append)

open FileSystem in
theorem readInto_exact_pair :
    ∃ count buf' s', readInto [1, 2, 3] (⟨pairVolume, opened pairDetails [3, 4] 512 pairOptions⟩ :
      FileSession 512 1) = (.ok (count, buf'), s') ∧
    ReadsExactly smallHome [3, 4] [1, 2, 3] ⟨pairVolume, opened pairDetails [3, 4] 512 pairOptions⟩ count buf' s' :=
  readInto_exact (readable_of_opened pairVolume_fit pairVolume_stores rfl rfl) rfl [1, 2, 3]

/-- Every round of the loop adds something, and the loop ends. -/
def Progresses (len : Nat) (s : FileSession size n) : Prop :=
  (∀ out s' bytes s'', Rounds len s out s' → readRound (len - out.length) s' = (.ok bytes, s'') → bytes ≠ []) ∧
    ∃ result s', File.read len s = (.ok result, s')

theorem Readable.read_stalls (readable : Readable home cs s)
    (before : s.file.cursor < s.file.details.dataLength) {len : Nat}
    (some_ : 0 < len) (stalls : Stalls s len) : (File.read len s).1 = .error .diverge := by
  have loops : (File.readIn len len [] s).1 = .error .diverge := readable.readIn_stalls len some_ before stalls
  rw [readable.read_started before some_, Exec.bind_of_error (Exec.run_of_fst loops)]

/-- `read` makes progress unless the number of valid bytes that are left loses its high part in
`usize` and what is left of it does not fill the buffer. -/
theorem read_progresses_iff (readable : Readable home cs s)
    (before : s.file.cursor < s.file.details.dataLength) {len : Nat}
    (some_ : 0 < len) : Progresses len s ↔ ¬ Stalls s len := by
  constructor
  · rintro ⟨_, result, s', run⟩ stalls
    have loops := readable.read_stalls before some_ stalls
    rw [run] at loops
    cases loops
  · intro flows
    obtain ⟨bytes, s', run, _⟩ := readable.read before flows
    refine ⟨fun out s₁ bytes s₂ rounds round => ?_, _, s', run⟩
    have start : Flowing len [] s := ⟨some_, before, flows⟩
    exact ((rounds.flowing readable.layout.pos start).round round readable.layout.pos).1

open FileSystem in
theorem read_progresses_iff_pair :
    Progresses 3 (⟨pairVolume, opened pairDetails [3, 4] 512 pairOptions⟩ : FileSession 512 1) := by
  have readable : Readable smallHome [3, 4]
    (⟨pairVolume, opened pairDetails [3, 4] 512 pairOptions⟩ : FileSession 512 1) :=
    readable_of_opened pairVolume_fit pairVolume_stores rfl rfl
  exact (read_progresses_iff readable (by decide) (by decide)).mpr fun stalls => absurd stalls.1 (by decide)

/-- A volume with one file of 4 GiB on a target with 32 bits: 128 clusters of 32 MiB, all in use. -/
def hugeVolume : FileSystem 512 1 :=
  { FileSystem.new ⟨fun s => if s = 10 then fun _ => 255 else fun _ => 0, [], []⟩ 32 with
    isMounted := true
    fs := ⟨100, 20, 65536, 33554432, 128, 2⟩
    allocator := { bitmap := ⟨10, 1, 128⟩, cache := .new, nextSearchCluster := 2 }
    fat := { startOfFatSector := some 20, cache := .new } }

def hugeHome (s : Nat) : CacheKind := if s = 10 then .bitmap else if s = 20 ∨ s = 21 then .fat else .data

def hugeDetails : FileDetails :=
  { FileSystem.pairDetails with firstCluster := 2, dataLength := 2 ^ 32, validDataLength := 2 ^ 32 }

theorem hugeVolume_layout : Layout 512 hugeHome hugeVolume.setup where
  pos := by decide
  words := by decide
  covers := by decide
  padding := by decide
  sectors := by decide
  mounted := rfl
  ids := by decide
  fat := by
    refine ⟨20, rfl, fun c low high => ?_⟩
    have small : c < 130 := high
    have quotient : c / Fat.numEntries 512 = 0 ∨ c / Fat.numEntries 512 = 1 := by
      simp only [Fat.numEntries, Fat.entrySize]
      omega
    rcases quotient with zero | one
    · rw [zero]
      decide
    · rw [one]
      decide
  sectorsPerCluster := by decide
  clusterLength := by decide
  clusterBound := by decide
  heap := by decide

theorem hugeVolume_data (c : Nat) : (hugeVolume.volume hugeHome).IsData hugeHome c := by
  intro i inside
  have sector : (hugeVolume.volume hugeHome).dataSector c i = 100 + (c - 2) * 65536 + i := rfl
  rw [sector, hugeHome, if_neg (by omega), if_neg (by omega)]

theorem hugeVolume_fit : hugeVolume.Fit hugeHome where
  sound := FileSystem.sound_of_new _ rfl fun k => by cases k <;> rfl
  layout := hugeVolume_layout
  search := le_rfl
  room c _ _ := hugeVolume_data c

theorem hugeVolume_used : ∀ c ∈ List.range' 2 128, (hugeVolume.volume hugeHome).isFreeCluster c = false := by
  decide +kernel

theorem hugeDetails_stores : (hugeVolume.volume hugeHome).Stores hugeHome hugeDetails (List.range' 2 128) where
  count := by
    rw [List.length_range']
    decide
  valid := le_rfl
  first c head := by
    cases head
    rfl
  contiguous _ := by
    rw [List.length_range']
    rfl
  linked flag := by cases flag
  distinct := List.nodup_range' 1
  inHeap c member := by
    rw [List.mem_range'_1] at member
    exact ⟨member.1, member.2⟩
  used c member := by
    unfold Volume.IsFree
    rw [hugeVolume_used c member]
    decide
  data c _ := hugeVolume_data c

open FileSystem in
/-- No byte of a file with 4 GiB of valid data can be read from its start with 32 bits. -/
theorem read_stalls_at_start :
    Readable hugeHome (List.range' 2 128) (⟨hugeVolume, opened hugeDetails (List.range' 2 128) 33554432
      pairOptions⟩ : FileSession 512 1) ∧ hugeVolume.usizeBits = 32 ∧
    (File.read 1 (⟨hugeVolume, opened hugeDetails (List.range' 2 128) 33554432 pairOptions⟩ : FileSession 512 1)).1 =
      .error .diverge ∧
    ¬ Progresses 1
      (⟨hugeVolume, opened hugeDetails (List.range' 2 128) 33554432 pairOptions⟩ : FileSession 512 1) := by
  have readable : Readable hugeHome (List.range' 2 128) (⟨hugeVolume, opened hugeDetails (List.range' 2 128) 33554432
      pairOptions⟩ : FileSession 512 1) := readable_of_opened hugeVolume_fit hugeDetails_stores rfl rfl
  have loops := readable.read_stalls (by decide) Nat.one_pos ⟨by decide, by decide⟩
  refine ⟨readable, rfl, loops, ?_⟩
  rintro ⟨_, result, s', run⟩
  rw [run] at loops
  cases loops

end FileSession

end ExFatSlim
