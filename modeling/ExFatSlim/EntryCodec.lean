import ExFatSlim.FileSystem

namespace ExFatSlim

/-- The bytes of a text in UTF-8. -/
def encodeUtf8 (s : List Char) : List UInt8 := s.flatMap String.utf8EncodeChar

theorem encodeUtf8_cons (c : Char) (s : List Char) : encodeUtf8 (c :: s) = String.utf8EncodeChar c ++ encodeUtf8 s :=
  List.flatMap_cons ..

theorem encodeUtf16_cons (c : Char) (s : List Char) : encodeUtf16 (c :: s) = encodeChar c ++ encodeUtf16 s :=
  List.flatMap_cons ..

theorem char_valid (c : Char) : c.toNat < 0xD800 ∨ (0xDFFF < c.toNat ∧ c.toNat < 0x110000) := by
  have valid := c.valid
  simp only [UInt32.isValidChar, Nat.isValidChar] at valid
  exact valid

theorem encodeChar_lt {c : Char} {u : Nat} (member : u ∈ encodeChar c) : u < 2 ^ 16 := by
  have valid := char_valid c
  unfold encodeChar at member
  split at member
  · rw [List.mem_singleton] at member
    omega
  · rcases List.mem_pair.mp member with high | low
    · omega
    · omega

theorem encodeUtf16_lt {s : List Char} {u : Nat} (member : u ∈ encodeUtf16 s) : u < 2 ^ 16 := by
  obtain ⟨c, _, unit⟩ := List.mem_flatMap.mp member
  exact encodeChar_lt unit

theorem decodeUtf16_plain {u : Nat} (plain : u < 0xD800 ∨ 0xDFFF < u) (rest : List Nat) :
    decodeUtf16 (u :: rest) = some (Char.ofNat u) :: decodeUtf16 rest := by
  rw [decodeUtf16.eq_def]
  dsimp only
  rw [if_pos plain]

theorem decodeUtf16_pair {u w : Nat} (high : 0xD800 ≤ u ∧ u < 0xDC00) (low : 0xDC00 ≤ w ∧ w ≤ 0xDFFF)
    (rest : List Nat) :
    decodeUtf16 (u :: w :: rest) =
      some (Char.ofNat ((u - 0xD800) * 0x400 + (w - 0xDC00) + 0x10000)) :: decodeUtf16 rest := by
  rw [decodeUtf16.eq_def]
  dsimp only
  rw [if_neg (by omega), if_neg (by omega), if_pos low]

/-- Decoding gives back every character, in surrogate pairs as well. -/
theorem decodeUtf16_encodeUtf16 (s : List Char) : decodeUtf16 (encodeUtf16 s) = s.map some := by
  induction s with
  | nil => rfl
  | cons c s ih =>
    have valid := char_valid c
    rw [encodeUtf16_cons, encodeChar, List.map_cons]
    split
    · rename_i small
      rw [List.singleton_append, decodeUtf16_plain (by omega), Char.ofNat_toNat, ih]
    · rename_i large
      rw [List.cons_append, List.singleton_append, decodeUtf16_pair (by omega) (by omega), ih]
      have code : (0xD800 + (c.toNat - 0x10000) / 0x400 - 0xD800) * 0x400 +
          (0xDC00 + (c.toNat - 0x10000) % 0x400 - 0xDC00) + 0x10000 = c.toNat := by omega
      rw [code, Char.ofNat_toNat]

/-- A character takes at most three bytes for each of its units. -/
theorem utf8Size_le (c : Char) : c.utf8Size ≤ 3 * (encodeChar c).length := by
  unfold encodeChar
  split
  · rename_i small
    have most := c.utf8Size_le_four
    have notFour : c.utf8Size ≠ 4 := by
      rw [ne_eq, Char.utf8Size_eq_four_iff, UInt32.lt_iff_toNat_lt]
      change ¬ (0xFFFF < c.toNat)
      omega
    simp only [List.length_singleton]
    omega
  · have most := c.utf8Size_le_four
    simp only [List.length_cons, List.length_nil]
    omega

theorem length_encodeUtf8_le (s : List Char) : (encodeUtf8 s).length ≤ 3 * (encodeUtf16 s).length := by
  induction s with
  | nil => simp [encodeUtf8]
  | cons c s ih =>
    have size := utf8Size_le c
    rw [encodeUtf8_cons, encodeUtf16_cons, List.length_append, List.length_append, String.length_utf8EncodeChar]
    omega

/-- The characters before the first error. -/
def leading : List (Option Char) → List Char
  | [] => []
  | none :: _ => []
  | some c :: rest => c :: leading rest

theorem leading_map_some (s : List Char) : leading (s.map some) = s := by
  induction s with
  | nil => rfl
  | cons c s ih => rw [List.map_cons, leading, ih]

/-- How the loop of `decode_utf16_to_utf8` ends: the bytes of the leading
characters have to fit, and then an error after them decides. -/
theorem decodeChars_outcome {σ : Type} {capacity : Nat} (chars : List (Option Char)) (t : σ) : ∀ out : List UInt8,
    out.length ≤ capacity → (decodeChars capacity chars out : ExFat σ (List UInt8)) t =
      (if out.length + (encodeUtf8 (leading chars)).length ≤ capacity then
        if none ∈ chars then .error (.error (.invalidUtf16String "file name contains an invalid utf16 character"))
        else .ok (out ++ encodeUtf8 (leading chars))
      else .error (.error .fileNameBufferTooSmall), t) := by
  induction chars with
  | nil =>
    intro out inside
    rw [leading, encodeUtf8, List.flatMap_nil, List.length_nil, Nat.add_zero, if_pos inside, List.append_nil]
    rfl
  | cons ch rest ih =>
    intro out inside
    cases ch with
    | none =>
      rw [leading, encodeUtf8, List.flatMap_nil, List.length_nil, Nat.add_zero, if_pos inside, if_pos (by simp)]
      rfl
    | some c =>
      rw [leading, encodeUtf8_cons, decodeChars]
      by_cases fits : out.length + (String.utf8EncodeChar c).length ≤ capacity
      · rw [if_pos fits, ih _ (by rwa [List.length_append]), List.length_append, List.length_append,
          List.append_assoc,
          Nat.add_assoc]
        simp
      · rw [if_neg fits, List.length_append, if_neg (by omega)]
        rfl

theorem decodeChars_run {σ : Type} {capacity : Nat} (s : List Char) (t : σ) {out : List UInt8}
    (fits : out.length + (encodeUtf8 s).length ≤ capacity) :
    (decodeChars capacity (s.map some) out : ExFat σ (List UInt8)) t = (.ok (out ++ encodeUtf8 s), t) := by
  rw [decodeChars_outcome _ _ _ (by omega), leading_map_some, if_pos fits, if_neg (by simp)]

/-- A name of at most 255 units fits a buffer of 765 bytes. -/
theorem decodeUtf16ToUtf8_run {σ : Type} {s : List Char} (short : (encodeUtf16 s).length ≤ 255) {capacity : Nat}
    (roomy : maxNameLen ≤ capacity) (t : σ) :
    (decodeUtf16ToUtf8 (encodeUtf16 s) capacity : ExFat σ (List UInt8)) t = (.ok (encodeUtf8 s), t) := by
  have length := length_encodeUtf8_le s
  simp only [maxNameLen] at roomy
  rw [decodeUtf16ToUtf8, decodeUtf16_encodeUtf16, decodeChars_run s t (by rw [List.length_nil]; omega)]
  rfl

namespace FileAttributes

theorem fromBitsTruncate_bits (a : FileAttributes) : fromBitsTruncate a.bits = a := by
  obtain ⟨r, h, s, d, ar⟩ := a
  revert r h s d ar
  decide

theorem bits_lt (a : FileAttributes) : a.bits < 256 ^ 2 := by
  obtain ⟨r, h, s, d, ar⟩ := a
  revert r h s d ar
  decide

end FileAttributes

namespace GeneralSecondaryFlags

theorem fromBitsTruncate_bits (f : GeneralSecondaryFlags) : fromBitsTruncate f.bits = f := by
  obtain ⟨a, b⟩ := f
  revert a b
  decide

theorem bits_lt (f : GeneralSecondaryFlags) : f.bits < 256 ^ 1 := by
  obtain ⟨a, b⟩ := f
  revert a b
  decide

end GeneralSecondaryFlags

/-- The fields fit the bytes they have. -/
structure FileDirEntry.Fits (e : FileDirEntry) : Prop where
  secondaryCount : e.secondaryCount < 256 ^ 1
  setChecksum : e.setChecksum < 256 ^ 2
  createTimestamp : e.createTimestamp < 256 ^ 4
  lastModifiedTimestamp : e.lastModifiedTimestamp < 256 ^ 4
  lastAccessedTimestamp : e.lastAccessedTimestamp < 256 ^ 4
  create10msIncrement : e.create10msIncrement < 256 ^ 1
  lastModified10msIncrement : e.lastModified10msIncrement < 256 ^ 1
  createUtcOffset : e.createUtcOffset < 256 ^ 1
  lastModifiedUtcOffset : e.lastModifiedUtcOffset < 256 ^ 1
  lastAccessedUtcOffset : e.lastAccessedUtcOffset < 256 ^ 1

theorem FileDirEntry.ofRaw_serialize {e : FileDirEntry} (fits : e.Fits) : ofRaw e.serialize = e := by
  unfold ofRaw serialize
  simp (disch := first | decide | simp) only [Block.le_patch_same, Block.le_patch_apart]
  simp only [Nat.mod_eq_of_lt fits.secondaryCount, Nat.mod_eq_of_lt fits.setChecksum,
    Nat.mod_eq_of_lt fits.createTimestamp, Nat.mod_eq_of_lt fits.lastModifiedTimestamp,
    Nat.mod_eq_of_lt fits.lastAccessedTimestamp, Nat.mod_eq_of_lt fits.create10msIncrement,
    Nat.mod_eq_of_lt fits.lastModified10msIncrement, Nat.mod_eq_of_lt fits.createUtcOffset,
    Nat.mod_eq_of_lt fits.lastModifiedUtcOffset, Nat.mod_eq_of_lt fits.lastAccessedUtcOffset,
    Nat.mod_eq_of_lt (FileAttributes.bits_lt _), FileAttributes.fromBitsTruncate_bits]

structure StreamExtensionDirEntry.Fits (e : StreamExtensionDirEntry) : Prop where
  nameLength : e.nameLength < 256 ^ 1
  nameHash : e.nameHash < 256 ^ 2
  validDataLength : e.validDataLength < 256 ^ 8
  firstCluster : e.firstCluster < 256 ^ 4
  dataLength : e.dataLength < 256 ^ 8

theorem StreamExtensionDirEntry.ofRaw_serialize {e : StreamExtensionDirEntry} (fits : e.Fits) :
    ofRaw e.serialize = e := by
  unfold ofRaw serialize
  simp (disch := first | decide | simp) only [Block.le_patch_same, Block.le_patch_apart]
  simp only [Nat.mod_eq_of_lt fits.nameLength, Nat.mod_eq_of_lt fits.nameHash,
    Nat.mod_eq_of_lt fits.validDataLength, Nat.mod_eq_of_lt fits.firstCluster, Nat.mod_eq_of_lt fits.dataLength,
    Nat.mod_eq_of_lt (GeneralSecondaryFlags.bits_lt _), GeneralSecondaryFlags.fromBitsTruncate_bits]

theorem FileDirEntry.byte_serialize (e : FileDirEntry) : e.serialize.byte 0 = 0x85 := by
  unfold serialize
  simp (disch := first | decide | simp) only [Block.byte_patch_outside]
  rfl

theorem StreamExtensionDirEntry.byte_serialize (e : StreamExtensionDirEntry) : e.serialize.byte 0 = 0xC0 := by
  unfold serialize
  simp (disch := first | decide | simp) only [Block.byte_patch_outside]
  rfl

theorem byte_fileNameSerialize (units : List Nat) : (fileNameSerialize units).byte 0 = 0xC1 := by
  unfold fileNameSerialize
  simp (disch := first | decide | simp) only [Block.byte_patch_outside]
  rfl

/-- The checksum is in bytes 2 and 3. -/
theorem FileDirEntry.ofRaw_patch_checksum (raw : RawDirEntry) {sum : Nat} (small : sum < 2 ^ 16) :
    ofRaw (raw.patch 2 (leBytes 2 sum)) = { ofRaw raw with setChecksum := sum } := by
  unfold ofRaw
  have same : sum % 256 ^ 2 = sum := Nat.mod_eq_of_lt small
  simp (disch := first | decide | simp) only [Block.le_patch_same, Block.le_patch_apart, same]

theorem drop_take_flatMap_leBytes (units : List Nat) : ∀ {k : Nat} (inside : k < units.length),
    ((units.flatMap (leBytes 2)).drop (2 * k)).take 2 = leBytes 2 units[k] := by
  induction units with
  | nil => intro k inside; simp at inside
  | cons u units ih =>
    intro k inside
    rw [List.flatMap_cons]
    cases k with
    | zero =>
      rw [Nat.mul_zero, List.drop_zero, List.take_append_of_le_length (by simp), List.take_of_length_le (by simp)]
      rfl
    | succ k =>
      rw [Nat.mul_succ, Nat.add_comm, ← List.drop_drop, List.drop_left' (length_leBytes 2 u),
        ih (by simpa using inside)]
      rfl

theorem length_flatMap_leBytes (units : List Nat) : (units.flatMap (leBytes 2)).length = 2 * units.length := by
  induction units with
  | nil => rfl
  | cons u units ih =>
    rw [List.flatMap_cons, List.length_append, ih, length_leBytes, List.length_cons]
    omega

@[simp] theorem length_fileNameOfRaw (raw : RawDirEntry) : (fileNameOfRaw raw).length = 15 := by
  simp [fileNameOfRaw]

/-- The part of a name that is taken of an entry, when this many units are missing. -/
theorem length_namePart (raw : RawDirEntry) (missing : Nat) :
    ((fileNameOfRaw raw).take (min missing 15)).length = min missing 15 := by
  rw [List.length_take, length_fileNameOfRaw]
  omega

/-- A file name entry holds the units it was made of. -/
theorem take_fileNameOfRaw {units : List Nat} (short : units.length ≤ 15) (small : ∀ u ∈ units, u < 2 ^ 16) :
    (fileNameOfRaw (fileNameSerialize units)).take units.length = units := by
  apply List.ext_getElem
  · simp
    omega
  intro k bound inside
  rw [List.getElem_take]
  simp only [fileNameOfRaw, List.getElem_map, List.getElem_range]
  have length := length_flatMap_leBytes units
  rw [Block.le_eq_leNat, fileNameSerialize, Block.slice_patch_inner _ (by simp only [rawEntryLen]; omega) (by omega),
    drop_take_flatMap_leBytes units inside, leNat_leBytes]
  exact Nat.mod_eq_of_lt (small _ (List.getElem_mem inside))

/-- The file name entries of a name, 15 units each. -/
def nameRaws : Nat → List Nat → List RawDirEntry
  | 0, _ => []
  | rounds + 1, units => if units.isEmpty then [] else fileNameSerialize (units.take 15) ::
    nameRaws rounds (units.drop 15)

theorem length_nameRaws (rounds : Nat) : ∀ {units : List Nat}, units.length ≤ rounds →
    (nameRaws rounds units).length = FileSystem.divCeil units.length 15 := by
  induction rounds with
  | zero =>
    intro units none_
    rw [Nat.le_zero.mp none_]
    rfl
  | succ rounds ih =>
    intro units few
    cases units with
    | nil => rfl
    | cons u units =>
      rw [nameRaws, if_neg (by simp), List.length_cons, ih (by simp at few ⊢; omega), List.length_drop]
      simp only [FileSystem.divCeil, List.length_cons]
      omega

theorem byte_of_mem_nameRaws (rounds : Nat) : ∀ {units : List Nat} {raw : RawDirEntry}, raw ∈ nameRaws rounds units →
    raw.byte 0 = 0xC1 := by
  induction rounds with
  | zero => intro units raw member; cases member
  | succ rounds ih =>
    intro units raw member
    rw [nameRaws] at member
    split at member
    · cases member
    · rcases List.mem_cons.mp member with rfl | member
      · exact byte_fileNameSerialize _
      · exact ih member

/-- Together they hold the whole name. -/
theorem take_nameRaws (rounds : Nat) : ∀ {units : List Nat}, units.length ≤ rounds → (∀ u ∈ units, u < 2 ^ 16) →
    ((nameRaws rounds units).flatMap fileNameOfRaw).take units.length = units := by
  induction rounds with
  | zero =>
    intro units none_ _
    rw [List.length_eq_zero_iff.mp (Nat.le_zero.mp none_)]
    rfl
  | succ rounds ih =>
    intro units few small
    by_cases empty : units = []
    · subst empty
      rfl
    · have some_ := List.length_pos_iff.mpr empty
      have chunk :=
        take_fileNameOfRaw (List.length_take_le 15 units) fun u member => small u (List.mem_of_mem_take member)
      have few' : (units.drop 15).length ≤ rounds := by
        rw [List.length_drop]
        omega
      have rest := ih few' fun u member => small u (List.mem_of_mem_drop member)
      rw [List.length_drop] at rest
      rw [List.length_take] at chunk
      rw [nameRaws, if_neg (by simpa using empty), List.flatMap_cons, List.take_append, length_fileNameOfRaw, rest]
      by_cases long : 15 ≤ units.length
      · rw [Nat.min_eq_left long, List.take_of_length_le (by simp)] at chunk
        rw [List.take_of_length_le (by simp; omega), chunk, List.take_append_drop]
      · rw [Nat.min_eq_right (by omega)] at chunk
        rw [chunk, List.drop_of_length_le (by omega), List.append_nil, List.take_of_length_le (by omega)]

/-- One step of the checksum of an entry set: the sum is rotated right by one
bit and the byte is added, in 16 bits. -/
def setChecksumStep (sum : Nat) (b : UInt8) : Nat :=
  ((if sum % 2 = 1 then 0x8000 else 0) + sum / 2 + b.toNat) % 2 ^ 16

/-- The exFAT checksum of an entry set: over all of its bytes but the two that hold it. -/
def setChecksum (entries : List RawDirEntry) : Nat :=
  (entries.flatMap fun e => e.slice 0 rawEntryLen).zipIdx.foldl
    (fun sum b => if b.2 = 2 ∨ b.2 = 3 then sum else setChecksumStep sum b.1) 0

namespace DirSetWriter

theorem checksumByte_eq (sum : Nat) (b : UInt8) : checksumByte sum b = setChecksumStep sum b := by
  have parity : sum % 2 * 0x8000 = if sum % 2 = 1 then 0x8000 else 0 := by
    split <;> omega
  rw [checksumByte, setChecksumStep, parity]

theorem calcChecksum_lt {sum : Nat} (small : sum < 2 ^ 16) (raw : RawDirEntry) (isFileDir : Bool) :
    calcChecksum sum raw isFileDir < 2 ^ 16 := by
  unfold calcChecksum
  generalize List.finRange rawEntryLen = places
  induction places generalizing sum with
  | nil => exact small
  | cons i places ih =>
    rw [List.foldl_cons]
    apply ih
    split
    · exact small
    · exact Nat.mod_lt _ (by decide)

/-- The checksum of a file entry does not look at the checksum that is in it. -/
theorem calcChecksum_patch (sum : Nat) (raw : RawDirEntry) (bytes : List UInt8) (two : bytes.length = 2) :
    calcChecksum sum (raw.patch 2 bytes) true = calcChecksum sum raw true := by
  unfold calcChecksum
  congr 1
  funext sum i
  by_cases skipped : i.val = 2 ∨ i.val = 3
  · rw [if_pos ⟨rfl, skipped⟩, if_pos ⟨rfl, skipped⟩]
  · rw [if_neg (fun both => skipped both.2), if_neg (fun both => skipped both.2)]
    have same : (raw.patch 2 bytes).byte i.val = raw.byte i.val := raw.byte_patch_outside (by omega)
    simp only [Block.byte, i.isLt, dif_pos, Fin.eta] at same
    rw [same]

theorem zipIdx_slice (raw : RawDirEntry) (m : Nat) :
    (raw.slice 0 rawEntryLen).zipIdx m = (List.finRange rawEntryLen).map fun i => (raw i, m + i.val) := by
  apply List.ext_getElem
  · simp
  intro k bound bound'
  have inside : k < rawEntryLen := by simpa using bound
  simp [Block.slice, Block.byte, inside]

/-- The bytes of one entry, from the byte with number `m` of the set on. -/
theorem foldl_zipIdx_slice (raw : RawDirEntry) {m : Nat} (isFileDir : Bool) (first : isFileDir = true → m = 0)
    (later : isFileDir = false → rawEntryLen ≤ m) (sum : Nat) :
    ((raw.slice 0 rawEntryLen).zipIdx m).foldl
      (fun sum b => if b.2 = 2 ∨ b.2 = 3 then sum else setChecksumStep sum b.1) sum =
        calcChecksum sum raw isFileDir := by
  rw [zipIdx_slice, List.foldl_map, calcChecksum]
  congr 1
  funext sum i
  dsimp only
  rw [checksumByte_eq]
  cases isFileDir with
  | true =>
    rw [first rfl, Nat.zero_add]
    by_cases skipped : i.val = 2 ∨ i.val = 3
    · rw [if_pos skipped, if_pos ⟨rfl, skipped⟩]
    · rw [if_neg skipped, if_neg (fun both => skipped both.2)]
  | false =>
    have far := later rfl
    simp only [rawEntryLen] at far
    rw [if_neg (by omega), if_neg (by simp)]

/-- What a writer that is handed the entries one by one comes to. -/
theorem setChecksum_cons (first : RawDirEntry) (rest : List RawDirEntry) :
    setChecksum (first :: rest) =
      rest.foldl (fun sum raw => calcChecksum sum raw false) (calcChecksum 0 first true) := by
  have later : ∀ (rest : List RawDirEntry) (m sum : Nat), rawEntryLen ≤ m →
      ((rest.flatMap fun e => e.slice 0 rawEntryLen).zipIdx m).foldl
        (fun sum b => if b.2 = 2 ∨ b.2 = 3 then sum else setChecksumStep sum b.1) sum =
      rest.foldl (fun sum raw => calcChecksum sum raw false) sum := by
    intro rest
    induction rest with
    | nil => intro m sum _; rfl
    | cons raw rest ih =>
      intro m sum far
      rw [List.flatMap_cons, List.zipIdx_append, List.foldl_append,
        foldl_zipIdx_slice raw false (fun flag => by cases flag) (fun _ => far), List.foldl_cons]
      exact ih _ _ (by omega)
  rw [setChecksum, List.flatMap_cons, List.zipIdx_append, List.foldl_append,
    foldl_zipIdx_slice first true (fun _ => rfl) (fun flag => by cases flag)]
  exact later rest _ _ (by simp)

end DirSetWriter

structure EncodedTimestamp.Fits (t : EncodedTimestamp) : Prop where
  packed : t.packed < 256 ^ 4
  increment10ms : t.increment10ms < 256 ^ 1
  utcOffset : t.utcOffset < 256 ^ 1

theorem noClock_fits : EncodedTimestamp.Fits {} := ⟨by decide, by decide, by decide⟩

theorem daysInMonth_le (year month : Nat) : daysInMonth year month ≤ 31 := by
  unfold daysInMonth
  split <;> try decide
  split <;> decide

theorem month_le {year month : Nat} (some_ : 1 ≤ daysInMonth year month) : month ≤ 12 := by
  unfold daysInMonth at some_
  split at some_ <;> omega

/-- The fields of a valid timestamp do not overlap. -/
theorem Timestamp.encodeValid_fits {t : Timestamp} (valid : t.isValid = true) : t.encodeValid.Fits := by
  simp only [isValid, Bool.and_eq_true, decide_eq_true_eq, minYear, maxYear] at valid
  obtain ⟨⟨⟨⟨⟨⟨⟨_, year⟩, day⟩, hour⟩, minute⟩, second⟩, centis⟩, _⟩ := valid
  have year := of_decide_eq_true year
  have days := daysInMonth_le t.year t.month
  have month := month_le (day.1.trans day.2)
  refine ⟨?_, ?_, ?_⟩
  · simp only [encodeValid, minYear]
    omega
  · simp only [encodeValid]
    omega
  · simp only [encodeValid, utcOffsetValid]
    split
    · omega
    · decide

theorem u16_ok {σ : Type} {x y : Nat} {s s' : σ} (run : (u16 x : ExFat σ Nat) s = (.ok y, s')) :
    y < 2 ^ 16 ∧ s' = s := by
  unfold u16 at run
  split at run <;> cases run
  exact ⟨by assumption, rfl⟩

theorem hashUnits_ok {σ : Type} (table : UpcaseTable) (units : List Nat) {s : σ} : ∀ {hash h : Nat} {s' : σ},
    hash < 2 ^ 16 → (hashUnits table units hash : ExFat σ Nat) s = (.ok h, s') → h < 2 ^ 16 ∧ s' = s := by
  induction units with
  | nil =>
    intro hash h s' small run
    cases run
    exact ⟨small, rfl⟩
  | cons u units ih =>
    intro hash h s' small run
    rw [hashUnits] at run
    split at run
    · cases run
    · obtain ⟨h₁, s₁, first, rest⟩ := Exec.bind_eq_ok.mp run
      obtain ⟨_, rfl⟩ := u16_ok first
      obtain ⟨h₂, s₂, second, last⟩ := Exec.bind_eq_ok.mp rest
      obtain ⟨small₂, rfl⟩ := u16_ok second
      exact ih small₂ last

/-- What an accepted name is: not empty, its units counted and hashed in 16 bits. -/
theorem encodeUtf16UpcaseAndHash_ok {σ : Type} {name : List Char} {table : UpcaseTable} {s s' : σ} {hash count : Nat}
    (run : (encodeUtf16UpcaseAndHash name table : ExFat σ (Nat × Nat)) s = (.ok (hash, count), s')) :
    hash < 2 ^ 16 ∧ count = (encodeUtf16 name).length ∧ 0 < count ∧ s' = s := by
  unfold encodeUtf16UpcaseAndHash at run
  split at run
  · cases run
  · obtain ⟨h, s₁, hashed, rest⟩ := Exec.bind_eq_ok.mp run
    obtain ⟨small, rfl⟩ := hashUnits_ok table _ (by decide) hashed
    split at rest
    · cases rest
    · rename_i some_
      cases rest
      exact ⟨small, rfl, Nat.pos_of_ne_zero some_, rfl⟩

end ExFatSlim
