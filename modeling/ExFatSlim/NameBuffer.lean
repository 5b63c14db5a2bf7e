import ExFatSlim.EntryCodec

namespace ExFatSlim

def IsHighSurrogate (u : Nat) : Prop := 0xD800 ≤ u ∧ u < 0xDC00

def IsLowSurrogate (u : Nat) : Prop := 0xDC00 ≤ u ∧ u ≤ 0xDFFF

/-- At `i` there is a high surrogate that no low one follows, or a low one that
comes after no high one. -/
def UnpairedAt (units : List Nat) (i : Nat) : Prop :=
  (∃ u ∈ units[i]?, IsHighSurrogate u ∧ ∀ w ∈ units[i + 1]?, ¬ IsLowSurrogate w) ∨
    ∃ u ∈ units[i]?, IsLowSurrogate u ∧ ∀ j, j + 1 = i → ∀ w ∈ units[j]?, ¬ IsHighSurrogate w

def Unpaired (units : List Nat) : Prop := ∃ i, UnpairedAt units i

theorem unpairedAt_cons {u : Nat} {rest : List Nat} {i : Nat} :
    UnpairedAt (u :: rest) (i + 2) ↔ UnpairedAt rest (i + 1) := by
  unfold UnpairedAt
  simp

/-- A unit that is no high surrogate has no part in what comes after it. -/
theorem unpaired_cons {u : Nat} (high : ¬ IsHighSurrogate u) (rest : List Nat) :
    Unpaired (u :: rest) ↔ IsLowSurrogate u ∨ Unpaired rest := by
  have first : UnpairedAt (u :: rest) 0 ↔ IsLowSurrogate u := by
    unfold UnpairedAt
    simp [high]
  have second : UnpairedAt (u :: rest) 1 ↔ UnpairedAt rest 0 := by
    unfold UnpairedAt
    simp [high]
  constructor
  · rintro ⟨i, at_i⟩
    rcases i with _ | _ | i
    · exact Or.inl (first.mp at_i)
    · exact Or.inr ⟨0, second.mp at_i⟩
    · exact Or.inr ⟨i + 1, unpairedAt_cons.mp at_i⟩
  · rintro (low | ⟨i, at_i⟩)
    · exact ⟨0, first.mpr low⟩
    · cases i with
      | zero => exact ⟨1, second.mpr at_i⟩
      | succ i => exact ⟨i + 2, unpairedAt_cons.mpr at_i⟩

/-- A pair of surrogates stands for itself. -/
theorem unpaired_pair {u w : Nat} (high : IsHighSurrogate u) (low : IsLowSurrogate w) (rest : List Nat) :
    Unpaired (u :: w :: rest) ↔ Unpaired rest := by
  have notLow : ¬ IsLowSurrogate u := fun both => absurd high.2 (Nat.not_lt.mpr both.1)
  have notHigh : ¬ IsHighSurrogate w := fun both => absurd both.2 (Nat.not_lt.mpr low.1)
  have first : ¬ UnpairedAt (u :: w :: rest) 0 := by
    unfold UnpairedAt
    simp [low, notLow]
  have second : ¬ UnpairedAt (u :: w :: rest) 1 := by
    unfold UnpairedAt
    simp [high, notHigh]
  have third : UnpairedAt (u :: w :: rest) 2 ↔ UnpairedAt rest 0 := by
    unfold UnpairedAt
    simp [notHigh]
  constructor
  · rintro ⟨i, at_i⟩
    rcases i with _ | _ | _ | i
    · exact absurd at_i first
    · exact absurd at_i second
    · exact ⟨0, third.mp at_i⟩
    · exact ⟨i + 1, unpairedAt_cons.mp (unpairedAt_cons.mp at_i)⟩
  · rintro ⟨i, at_i⟩
    cases i with
    | zero => exact ⟨2, third.mpr at_i⟩
    | succ i => exact ⟨i + 3, unpairedAt_cons.mpr (unpairedAt_cons.mpr at_i)⟩

theorem unpaired_high {u : Nat} (high : IsHighSurrogate u) (rest : List Nat)
    (alone : ∀ w ∈ rest.head?, ¬ IsLowSurrogate w) : Unpaired (u :: rest) := by
  refine ⟨0, Or.inl ⟨u, rfl, high, fun w next => alone w ?_⟩⟩
  simpa [List.head?_eq_getElem?] using next

theorem not_unpaired_nil : ¬ Unpaired [] := by
  rintro ⟨i, at_i⟩
  simp [UnpairedAt] at at_i

/-- `decode_utf16` meets an error exactly when some surrogate is unpaired. -/
theorem none_mem_decodeUtf16 (units : List Nat) : none ∈ decodeUtf16 units ↔ Unpaired units := by
  fun_induction decodeUtf16 units with
  | case1 => simp [not_unpaired_nil]
  | case2 u rest plain ih =>
    have notHigh : ¬ IsHighSurrogate u := by unfold IsHighSurrogate; omega
    have notLow : ¬ IsLowSurrogate u := by unfold IsLowSurrogate; omega
    simp [unpaired_cons notHigh, notLow, ih]
  | case3 u rest surrogate low ih =>
    have notHigh : ¬ IsHighSurrogate u := by unfold IsHighSurrogate; omega
    have isLow : IsLowSurrogate u := by unfold IsLowSurrogate; omega
    simp [unpaired_cons notHigh, isLow]
  | case4 u surrogate high =>
    have isHigh : IsHighSurrogate u := by unfold IsHighSurrogate; omega
    simpa using unpaired_high isHigh [] (by simp)
  | case5 u surrogate high w rest low ih =>
    have isHigh : IsHighSurrogate u := by unfold IsHighSurrogate; omega
    simp [unpaired_pair isHigh low, ih]
  | case6 u surrogate high w rest other ih =>
    have isHigh : IsHighSurrogate u := by unfold IsHighSurrogate; omega
    have alone := unpaired_high isHigh (w :: rest) (by simpa [IsLowSurrogate] using other)
    simp [alone]

theorem ofNat_plain {u : Nat} (plain : u < 0xD800 ∨ 0xDFFF < u) (small : u < 0x110000) :
    (Char.ofNat u).toNat = u := by
  have valid : u.isValidChar := plain.imp id fun above => ⟨above, small⟩
  rw [Char.ofNat, dif_pos valid]
  rfl

/-- The characters before the first error have the units that they were
decoded from, and without an error these are all. -/
theorem decodeUtf16_split (units : List Nat) (small : ∀ u ∈ units, u < 2 ^ 16) :
    ∃ rest, units = encodeUtf16 (leading (decodeUtf16 units)) ++ rest ∧ (none ∉ decodeUtf16 units → rest = []) := by
  fun_induction decodeUtf16 units with
  | case1 => exact ⟨[], rfl, fun _ => rfl⟩
  | case2 u rest plain ih =>
    have low := small u (by simp)
    obtain ⟨after, split, all⟩ := ih fun w member => small w (by simp [member])
    have units : encodeChar (Char.ofNat u) = [u] := by
      rw [encodeChar, ofNat_plain plain (by omega), if_pos (by omega)]
    refine ⟨after, ?_, fun paired => all fun member => paired (List.mem_cons_of_mem _ member)⟩
    rw [leading, encodeUtf16_cons, units, List.singleton_append, List.cons_append, ← split]
  | case3 u rest surrogate low ih => exact ⟨u :: rest, rfl, fun paired => absurd (by simp) paired⟩
  | case4 u surrogate high => exact ⟨[u], rfl, fun paired => absurd (by simp) paired⟩
  | case5 u surrogate high w rest low ih =>
    obtain ⟨after, split, all⟩ := ih fun w member => small w (by simp [member])
    have code := ofNat_plain (u := (u - 0xD800) * 0x400 + (w - 0xDC00) + 0x10000) (by omega) (by omega)
    have first : 0xD800 + ((u - 0xD800) * 0x400 + (w - 0xDC00) + 0x10000 - 0x10000) / 0x400 = u := by omega
    have second : 0xDC00 + ((u - 0xD800) * 0x400 + (w - 0xDC00) + 0x10000 - 0x10000) % 0x400 = w := by omega
    have units : encodeChar (Char.ofNat ((u - 0xD800) * 0x400 + (w - 0xDC00) + 0x10000)) = [u, w] := by
      rw [encodeChar, code, if_neg (by omega), first, second]
    refine ⟨after, ?_, fun paired => all fun member => paired (List.mem_cons_of_mem _ member)⟩
    rw [leading, encodeUtf16_cons, units, List.append_assoc, ← split]
    rfl
  | case6 u surrogate high w rest other ih => exact ⟨u :: w :: rest, rfl, fun paired => absurd (by simp) paired⟩

theorem encodeUtf16_leading {units : List Nat} (small : ∀ u ∈ units, u < 2 ^ 16) (paired : ¬ Unpaired units) :
    encodeUtf16 (leading (decodeUtf16 units)) = units := by
  obtain ⟨rest, split, all⟩ := decodeUtf16_split units small
  rw [all (fun member => paired ((none_mem_decodeUtf16 units).mp member)), List.append_nil] at split
  exact split.symm

/-- Whatever is decoded before an error takes at most three bytes for each unit. -/
theorem length_leading_le {units : List Nat} (small : ∀ u ∈ units, u < 2 ^ 16) :
    (encodeUtf8 (leading (decodeUtf16 units))).length ≤ 3 * units.length := by
  obtain ⟨rest, split, _⟩ := decodeUtf16_split units small
  have length := congrArg List.length split
  have bytes := length_encodeUtf8_le (leading (decodeUtf16 units))
  rw [List.length_append] at length
  omega

/-- `ch.encode_utf8(&mut utf8[cursor..cursor + needed])`. The slice is taken
first, and this is where it is checked against the end of the buffer. -/
def encodeInto {capacity : Nat} (ch : Char) (cursor : Nat) : ExFat (Block capacity) Unit := do
  Exec.assert (cursor + ch.utf8Size ≤ capacity)
  modify fun utf8 => utf8.patch cursor (String.utf8EncodeChar ch)

/-- The loop of `decode_utf16_to_utf8` on the buffer itself. -/
def decodeCharsInto {capacity : Nat} : List (Option Char) → Nat → ExFat (Block capacity) Nat
  | [], cursor => pure cursor
  | none :: _, _ => Exec.raise (.invalidUtf16String "file name contains an invalid utf16 character")
  | some ch :: rest, cursor => do
    let needed := ch.utf8Size
    if cursor + needed ≤ capacity then
      encodeInto ch cursor
      decodeCharsInto rest (cursor + needed)
    else Exec.raise .fileNameBufferTooSmall

/-- `decode_utf16_to_utf8`, which returns how many bytes of the buffer it has filled. -/
def decodeUtf16ToUtf8Into {capacity : Nat} (utf16 : List Nat) : ExFat (Block capacity) Nat :=
  decodeCharsInto (decodeUtf16 utf16) 0

/-- How the loop ends: the characters before the first error are written one
after the other, as long as they fit. -/
theorem decodeCharsInto_outcome {capacity : Nat} (chars : List (Option Char)) :
    ∀ {cursor : Nat} (utf8 : Block capacity),
    cursor ≤ capacity → ∃ r written, decodeCharsInto chars cursor utf8 = (r, utf8.patch cursor written) ∧
      cursor + written.length ≤ capacity ∧
      if cursor + (encodeUtf8 (leading chars)).length ≤ capacity then
        written = encodeUtf8 (leading chars) ∧
          r = if none ∈ chars then
            .error (.error (.invalidUtf16String "file name contains an invalid utf16 character"))
            else .ok (cursor + written.length)
      else r = .error (.error .fileNameBufferTooSmall) := by
  induction chars with
  | nil =>
    intro cursor utf8 inside
    refine ⟨.ok cursor, [], ?_, inside, ?_⟩
    · rw [Block.patch_nil]
      rfl
    · simp [leading, encodeUtf8, inside]
  | cons ch rest ih =>
    intro cursor utf8 inside
    cases ch with
    | none =>
      refine ⟨.error (.error (.invalidUtf16String "file name contains an invalid utf16 character")), [],
        ?_, inside, ?_⟩
      · rw [Block.patch_nil]
        rfl
      · simp [leading, encodeUtf8, inside]
    | some c =>
      have bytes := String.length_utf8EncodeChar c
      by_cases fits : cursor + c.utf8Size ≤ capacity
      · obtain ⟨r, written, run, within, outcome⟩ := ih (utf8.patch cursor (String.utf8EncodeChar c)) fits
        refine ⟨r, String.utf8EncodeChar c ++ written, ?_, ?_, ?_⟩
        · have stored : encodeInto c cursor utf8 = (.ok (), utf8.patch cursor (String.utf8EncodeChar c)) := by
            rw [encodeInto, Exec.bind_of_ok (Exec.assert_of fits utf8)]
            rfl
          rw [← Block.patch_append, bytes, ← run, decodeCharsInto]
          simp only [if_pos fits]
          exact Exec.bind_of_ok stored
        · rw [List.length_append, bytes]
          omega
        · have length : cursor + (encodeUtf8 (leading (some c :: rest))).length =
              cursor + c.utf8Size + (encodeUtf8 (leading rest)).length := by
            rw [leading, encodeUtf8_cons, List.length_append, bytes, Nat.add_assoc]
          rw [length]
          split
          · rename_i room
            rw [if_pos room] at outcome
            obtain ⟨rfl, rfl⟩ := outcome
            refine ⟨by rw [leading, encodeUtf8_cons], ?_⟩
            simp [bytes, Nat.add_assoc]
          · rename_i full
            rw [if_neg full] at outcome
            exact outcome
      · refine ⟨.error (.error .fileNameBufferTooSmall), [], ?_, inside, ?_⟩
        · rw [Block.patch_nil, decodeCharsInto]
          simp only [if_neg fits]
          rfl
        · rw [leading, encodeUtf8_cons, List.length_append, bytes, if_neg (by omega)]

/-- The buffer gets what the plain decoder returns. -/
theorem decodeUtf16ToUtf8Into_eq {σ : Type} {capacity : Nat} (units : List Nat) (utf8 : Block capacity) (t : σ) :
    ∃ r written, (decodeUtf16ToUtf8 units capacity : ExFat σ (List UInt8)) t = (r, t) ∧
      decodeUtf16ToUtf8Into units utf8 = (r.map List.length, utf8.patch 0 written) ∧ written.length ≤ capacity ∧
      ∀ bytes, r = .ok bytes → written = bytes := by
  obtain ⟨r, written, run, within, outcome⟩ := decodeCharsInto_outcome (decodeUtf16 units) utf8 (Nat.zero_le capacity)
  have plain : (decodeUtf16ToUtf8 units capacity : ExFat σ (List UInt8)) t = _ :=
    decodeChars_outcome (decodeUtf16 units) t [] (Nat.zero_le capacity)
  refine ⟨_, written, plain, ?_, by omega, ?_⟩
  · rw [decodeUtf16ToUtf8Into, run]
    split at outcome
    · rename_i room
      obtain ⟨rfl, rfl⟩ := outcome
      rw [List.length_nil, if_pos room]
      split <;> simp [Except.map]
    · rename_i full
      rw [List.length_nil, if_neg full, outcome]
      rfl
  · intro bytes ok
    rw [List.length_nil, List.nil_append] at ok
    split at outcome
    · rename_i room
      rw [if_pos room] at ok
      split at ok
      · cases ok
      · exact outcome.1.trans (Except.ok.inj ok)
    · rename_i full
      rw [if_neg full] at ok
      cases ok

/-- A buffer of `MAX_NAME_LEN` bytes is enough for every name of at most 255
units: decoding fails exactly on an unpaired surrogate, and otherwise leaves the
name in UTF-8 at the start of the buffer. Into a buffer of any length nothing
but a start of it is ever written, and no slice reaches beyond its end. -/
theorem decodeUtf16ToUtf8Into_maxNameLen (units : List Nat) (small : ∀ u ∈ units, u < 2 ^ 16) :
    (units.length ≤ 255 → ∀ utf8 : Block maxNameLen, ∃ r after, decodeUtf16ToUtf8Into units utf8 = (r, after) ∧
      r ≠ .error (.error .fileNameBufferTooSmall) ∧
      ((∃ reason, r = .error (.error (.invalidUtf16String reason))) ↔ Unpaired units) ∧
      (¬ Unpaired units → ∃ name, encodeUtf16 name = units ∧ r = .ok (encodeUtf8 name).length ∧
        after.slice 0 (encodeUtf8 name).length = encodeUtf8 name)) ∧
    ∀ {capacity : Nat} (utf8 : Block capacity), ∃ r written, decodeUtf16ToUtf8Into units utf8 =
      (r, utf8.patch 0 written) ∧
      written.length ≤ capacity ∧ r ≠ .error .panic ∧ ∀ length, r = .ok length → length = written.length := by
  constructor
  · intro short utf8
    obtain ⟨r, written, run, within, outcome⟩ := decodeCharsInto_outcome (decodeUtf16 units) utf8 (Nat.zero_le _)
    have bytes := length_leading_le small
    have room : 0 + (encodeUtf8 (leading (decodeUtf16 units))).length ≤ maxNameLen := by
      simp only [maxNameLen]
      omega
    rw [if_pos room, Nat.zero_add] at outcome
    obtain ⟨rfl, rfl⟩ := outcome
    rw [← none_mem_decodeUtf16]
    refine ⟨_, _, run, ?_, ?_, ?_⟩
    · split <;> simp
    · split
      · rename_i unpaired
        simp [unpaired]
      · rename_i paired
        simp [paired]
    · intro paired
      have whole := encodeUtf16_leading small fun unpaired => paired ((none_mem_decodeUtf16 units).mpr unpaired)
      refine ⟨_, whole, by rw [if_neg paired], ?_⟩
      exact Block.slice_patch_same utf8 room
  · intro capacity utf8
    obtain ⟨r, written, run, within, outcome⟩ := decodeCharsInto_outcome (decodeUtf16 units) utf8 (Nat.zero_le _)
    refine ⟨r, written, run, by omega, ?_, ?_⟩
    · split at outcome
      · rw [outcome.2]
        split <;> simp
      · simp [outcome]
    · intro length ok
      split at outcome
      · obtain ⟨_, result⟩ := outcome
        rw [result] at ok
        split at ok
        · cases ok
        · simpa using (Except.ok.inj ok).symm
      · rw [outcome] at ok
        cases ok

/-- An emoji, which takes four bytes, and a buffer of three. -/
theorem decodeUtf16ToUtf8Into_maxNameLen_emoji :
    (∃ r after, decodeUtf16ToUtf8Into [0xD83D, 0xDE00] (fun _ => 0 : Block maxNameLen) = (r, after) ∧
      r ≠ .error (.error .fileNameBufferTooSmall)) ∧
    ∃ r written, decodeUtf16ToUtf8Into [0xD83D, 0xDE00] (fun _ => 0 : Block 3) =
      (r, Block.patch (fun _ => 0) 0 written) ∧ r ≠ .error .panic := by
  have both := decodeUtf16ToUtf8Into_maxNameLen [0xD83D, 0xDE00] (by decide)
  obtain ⟨r, after, run, fits, _⟩ := both.1 (by decide) fun _ => 0
  obtain ⟨r', written, run', _, safe, _⟩ := both.2 (fun _ => 0 : Block 3)
  exact ⟨⟨r, after, run, fits⟩, r', written, run', safe⟩

example : (decodeUtf16ToUtf8Into [0xD83D, 0xDE00] (fun _ => 0 : Block 4)).1 = .ok 4 := by decide

example : (decodeUtf16ToUtf8Into [0xDE00, 0xD83D] (fun _ => 0 : Block 4)).1 =
    .error (.error (.invalidUtf16String "file name contains an invalid utf16 character")) := by decide

end ExFatSlim
