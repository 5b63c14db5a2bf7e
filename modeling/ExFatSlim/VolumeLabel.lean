import ExFatSlim.NameBuffer
import ExFatSlim.Mount

namespace ExFatSlim

/-- The units of a volume label entry, as many as its second byte counts. -/
def labelUnits (value : RawDirEntry) : List Nat := (List.range (value.le 1 1)).map fun k => value.le (2 + 2 * k) 2

/-- How many bytes the units before the first unpaired surrogate take in UTF-8:
one, two or three for a unit on its own and four for a pair of surrogates. -/
def utf8Bytes : List Nat → Nat
  | [] => 0
  | u :: rest =>
    if u < 0x80 then 1 + utf8Bytes rest
    else if u < 0x800 then 2 + utf8Bytes rest
    else if u < 0xD800 ∨ 0xDFFF < u then 3 + utf8Bytes rest
    else if 0xDC00 ≤ u then 0
    else match rest with
      | [] => 0
      | w :: rest' => if 0xDC00 ≤ w ∧ w ≤ 0xDFFF then 4 + utf8Bytes rest' else 0

theorem utf8Size_eq (c : Char) : c.utf8Size =
    if c.toNat < 0x80 then 1 else if c.toNat < 0x800 then 2 else if c.toNat < 0x10000 then 3 else 4 := by
  have one : c.val ≤ 0x7F ↔ c.toNat < 0x80 := UInt32.le_iff_toNat_le.trans Nat.lt_succ_iff.symm
  have two : c.val ≤ 0x7FF ↔ c.toNat < 0x800 := UInt32.le_iff_toNat_le.trans Nat.lt_succ_iff.symm
  have three : c.val ≤ 0xFFFF ↔ c.toNat < 0x10000 := UInt32.le_iff_toNat_le.trans Nat.lt_succ_iff.symm
  simp only [← one, ← two, ← three]
  rfl

theorem utf8Bytes_eq (units : List Nat) (small : ∀ u ∈ units, u < 2 ^ 16) :
    (encodeUtf8 (leading (decodeUtf16 units))).length = utf8Bytes units := by
  fun_induction decodeUtf16 units with
  | case1 => rfl
  | case2 u rest plain ih =>
    have low := small u (by simp)
    have code := ofNat_plain plain (by omega)
    have rest_ := ih fun w member => small w (by simp [member])
    rw [leading, encodeUtf8_cons, List.length_append, String.length_utf8EncodeChar, utf8Size_eq, code,
      utf8Bytes.eq_def]
    dsimp only
    rw [rest_]
    split_ifs <;> first | rfl | omega
  | case3 u rest surrogate low ih =>
    rw [utf8Bytes.eq_def]
    dsimp only
    rw [if_neg (by omega), if_neg (by omega), if_neg surrogate, if_pos low]
    rfl
  | case4 u surrogate high =>
    rw [utf8Bytes.eq_def]
    dsimp only
    rw [if_neg (by omega), if_neg (by omega), if_neg surrogate, if_neg high]
    rfl
  | case5 u surrogate high w rest low ih =>
    have code := ofNat_plain (u := (u - 0xD800) * 0x400 + (w - 0xDC00) + 0x10000) (by omega) (by omega)
    have rest_ := ih fun w member => small w (by simp [member])
    rw [leading, encodeUtf8_cons, List.length_append, String.length_utf8EncodeChar, utf8Size_eq, code,
      utf8Bytes.eq_def]
    dsimp only
    rw [rest_, if_neg (by omega), if_neg (by omega), if_neg (by omega), if_neg (by omega), if_neg (by omega),
      if_neg surrogate, if_neg high, if_pos low]
  | case6 u surrogate high w rest other ih =>
    rw [utf8Bytes.eq_def]
    dsimp only
    rw [if_neg (by omega), if_neg (by omega), if_neg surrogate, if_neg high, if_neg other]
    rfl

/-- How collecting a label ends: the bytes of the leading characters have to
fit, and then an error after them decides. -/
theorem collectLabel_outcome {σ : Type} (chars : List (Option Char)) (t : σ) : ∀ out : List UInt8, out.length ≤ 22 →
    (collectLabel chars out : ExFat σ (List UInt8)) t =
      (if out.length + (encodeUtf8 (leading chars)).length ≤ 22 then
        if none ∈ chars then .error (.error (.directoryEntry "invalid u16 char detected"))
        else .ok (out ++ encodeUtf8 (leading chars))
      else .error .panic, t) := by
  induction chars with
  | nil =>
    intro out inside
    rw [leading, encodeUtf8, List.flatMap_nil, List.length_nil, Nat.add_zero, if_pos inside, List.append_nil]
    rfl
  | cons ch rest ih =>
    intro out inside
    cases ch with
    | none =>
      rw [leading, encodeUtf8, List.flatMap_nil, List.length_nil, Nat.add_zero, if_pos inside, if_pos (by simp)]
      rfl
    | some c =>
      rw [leading, encodeUtf8_cons, collectLabel]
      by_cases fits : (out ++ String.utf8EncodeChar c).length ≤ 22
      · rw [Exec.bind_of_ok (Exec.assert_of fits t), ih _ fits, List.length_append, List.length_append,
          List.append_assoc,
          Nat.add_assoc]
        simp
      · have stopped : (Exec.assert ((out ++ String.utf8EncodeChar c).length ≤ 22) : ExFat σ Unit) t =
            (.error .panic, t) := by
          simp only [Exec.assert, if_neg fits]
          rfl
        rw [List.length_append] at fits
        rw [Exec.bind_of_error stopped, List.length_append, if_neg (by omega)]

theorem labelUnits_lt {value : RawDirEntry} {u : Nat} (member : u ∈ labelUnits value) : u < 2 ^ 16 := by
  obtain ⟨k, _, rfl⟩ := List.mem_map.mp member
  exact Block.le_lt value _ 2

/-- What becomes of a label entry. -/
theorem volumeLabelTryFrom_outcome {σ : Type} (value : RawDirEntry) (t : σ) :
    (volumeLabelTryFrom value : ExFat σ (List UInt8)) t =
      (if 11 < value.le 1 1 then .error (.error (.directoryEntry "character count exceeds 11"))
      else if utf8Bytes (labelUnits value) ≤ 22 then
        if none ∈ decodeUtf16 (labelUnits value) then .error (.error (.directoryEntry "invalid u16 char detected"))
        else .ok (encodeUtf8 (leading (decodeUtf16 (labelUnits value))))
      else .error .panic, t) := by
  unfold volumeLabelTryFrom
  by_cases long : 11 < value.le 1 1
  · simp only [if_pos long]
    rfl
  · have collected := collectLabel_outcome (decodeUtf16 (labelUnits value)) t [] (by simp)
    rw [List.length_nil, Nat.zero_add, List.nil_append,
      utf8Bytes_eq (labelUnits value) fun u member => labelUnits_lt member] at collected
    simp only [if_neg long]
    exact collected

/-- A label entry is read without a panic, and a proper label as its text in
UTF-8, exactly when it is refused for its length or its text fits 22 bytes. -/
theorem volumeLabelTryFrom_iff {σ : Type} (value : RawDirEntry) (t : σ) :
    ((∀ fault, (volumeLabelTryFrom value t).1 = .error fault → ∃ e, fault = .error e) ∧
      (value.le 1 1 ≤ 11 → ¬ Unpaired (labelUnits value) → ∃ label, encodeUtf16 label = labelUnits value ∧
        (volumeLabelTryFrom value t).1 = .ok (encodeUtf8 label))) ↔
    (11 < value.le 1 1 ∨ utf8Bytes (labelUnits value) ≤ 22) := by
  rw [volumeLabelTryFrom_outcome]
  by_cases long : 11 < value.le 1 1
  · rw [if_pos long]
    refine iff_of_true ⟨?_, fun short => absurd long (Nat.not_lt.mpr short)⟩ (Or.inl long)
    rintro fault ⟨⟩
    exact ⟨_, rfl⟩
  · rw [if_neg long]
    by_cases room : utf8Bytes (labelUnits value) ≤ 22
    · rw [if_pos room]
      refine iff_of_true ⟨?_, fun _ paired => ?_⟩ (Or.inr room)
      · intro fault failed
        split at failed
        · cases failed
          exact ⟨_, rfl⟩
        · cases failed
      · have whole := encodeUtf16_leading (fun u member => labelUnits_lt member) paired
        exact ⟨_, whole, if_neg fun member => paired ((none_mem_decodeUtf16 _).mp member)⟩
    · rw [if_neg room]
      refine iff_of_false ?_ (by simp [long, room])
      intro handled
      obtain ⟨e, raised⟩ := handled.1 .panic rfl
      cases raised

/-- Eight characters of three bytes each. -/
def longLabel : RawDirEntry := fun i =>
  if i.val = 0 then 0x83 else if i.val = 1 then 8
  else if i.val < 18 then (if i.val % 2 = 0 then 0x42 else 0x30) else 0

theorem volumeLabelTryFrom_longLabel :
    longLabel.le 1 1 ≤ 11 ∧ ¬ Unpaired (labelUnits longLabel) ∧
      (volumeLabelTryFrom longLabel : ExFat Unit (List UInt8)) () = (.error .panic, ()) := by
  refine ⟨by decide, ?_, by decide⟩
  rw [← none_mem_decodeUtf16]
  decide

end ExFatSlim
