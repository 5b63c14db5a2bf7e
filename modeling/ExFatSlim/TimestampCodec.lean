import Mathlib.Algebra.Group.Int.Defs
import ExFatSlim.EntryCodec

namespace ExFatSlim

/-- An unsigned 8-bit sum, which panics on overflow. -/
def u8 {σ : Type} (x : Nat) : ExFat σ Nat := if x < 2 ^ 8 then pure x else Exec.panic

/-- `x << k` in 32 bits. -/
def shl32 (x k : Nat) : Nat := (x <<< k) % 2 ^ 32

/-- `as u8` of a signed byte. -/
def ofI8 (x : Int) : Nat := (x % 2 ^ 8).toNat

/-- `as i8` of an unsigned byte. -/
def asI8 (b : Nat) : Int := if b < 2 ^ 7 then b else b - 2 ^ 8

namespace Timestamp

/-- The shifts and ors of `encode` as they stand. -/
def encodeBits (t : Timestamp) : EncodedTimestamp where
  packed := shl32 (t.year - minYear) 25 ||| shl32 t.month 21 ||| shl32 t.day 16 ||| shl32 t.hour 11
    ||| shl32 t.minute 5 ||| t.second >>> 1
  increment10ms := (t.second &&& 1) * 100 + t.centis
  utcOffset := match t.utcOffset15min with
    | some offset => utcOffsetValid ||| (ofI8 offset &&& 0x7F)
    | none => 0

/-- The offset of `decode`: the valid bit is shifted out, and the shift back extends the sign. -/
def offsetOf (utcOffset : Nat) : Option Int :=
  if utcOffset &&& utcOffsetValid ≠ 0 then some (asI8 ((utcOffset <<< 1) % 2 ^ 8) >>> (1 : Nat)) else none

def decode {σ : Type} (encoded : EncodedTimestamp) : ExFat σ Timestamp := do
  let packed := encoded.packed
  let extraSecs := encoded.increment10ms / 100
  let second ← u8 (((packed % 2 ^ 8 &&& 0x1F) <<< 1) % 2 ^ 8 + extraSecs)
  let centis := encoded.increment10ms % 100
  let utcOffset15min := offsetOf encoded.utcOffset
  let year ← u16 ((packed >>> 25) % 2 ^ 16 + minYear)
  pure {
    year
    month := (packed >>> 21) % 2 ^ 8 &&& 0x0F
    day := (packed >>> 16) % 2 ^ 8 &&& 0x1F
    hour := (packed >>> 11) % 2 ^ 8 &&& 0x1F
    minute := (packed >>> 5) % 2 ^ 8 &&& 0x3F
    second
    centis
    utcOffset15min }

/-- The fields of a valid timestamp and the widths that they have in the packed word. -/
structure Ranges (t : Timestamp) : Prop where
  year : minYear ≤ t.year ∧ t.year < minYear + 2 ^ 7
  month : t.month < 2 ^ 4
  day : t.day < 2 ^ 5
  hour : t.hour < 2 ^ 5
  minute : t.minute < 2 ^ 6
  second : t.second < 60
  centis : t.centis < 100
  offset : ∀ offset ∈ t.utcOffset15min, -64 ≤ offset ∧ offset < 64

theorem ranges {t : Timestamp} (valid : t.isValid = true) : t.Ranges := by
  simp only [isValid, Bool.and_eq_true, decide_eq_true_eq, minYear, maxYear] at valid
  obtain ⟨⟨⟨⟨⟨⟨⟨low, high⟩, day⟩, hour⟩, minute⟩, second⟩, centis⟩, offset⟩ := valid
  have low := of_decide_eq_true low
  have high := of_decide_eq_true high
  have days := daysInMonth_le t.year t.month
  have month := month_le (day.1.trans day.2)
  refine ⟨by simp only [minYear]; omega, by omega, by omega, by omega, by omega, by omega, by omega, ?_⟩
  intro o here
  rw [Option.mem_def.mp here] at offset
  simp only [Bool.and_eq_true, decide_eq_true_eq] at offset
  omega

end Timestamp

/-- An or that fills only bits which are clear is a sum. -/
theorem or_eq_add {k a b : Nat} (clear : 2 ^ k ∣ a) (small : b < 2 ^ k) : a ||| b = a + b := by
  obtain ⟨c, rfl⟩ := clear
  exact (Nat.two_pow_add_eq_or_of_lt small c).symm

theorem shl32_eq {x k : Nat} (small : x * 2 ^ k < 2 ^ 32) : shl32 x k = x * 2 ^ k := by
  rw [shl32, Nat.shiftLeft_eq, Nat.mod_eq_of_lt small]

theorem and_mask (x k : Nat) : x &&& (2 ^ k - 1) = x % 2 ^ k := Nat.and_two_pow_sub_one_eq_mod x k

namespace Timestamp

/-- The fields of a valid timestamp do not overlap, so that the ors are sums. -/
theorem encodeBits_eq {t : Timestamp} (valid : t.isValid = true) : t.encodeBits = t.encodeValid := by
  obtain ⟨year, month, day, hour, minute, second, centis, offset⟩ := ranges valid
  have packed : t.encodeBits.packed = t.encodeValid.packed := by
    simp only [encodeBits, encodeValid]
    rw [shl32_eq (by omega), shl32_eq (by omega), shl32_eq (by omega), shl32_eq (by omega), shl32_eq (by omega),
      Nat.shiftRight_eq_div_pow]
    rw [or_eq_add (k := 25) (b := t.month * 2 ^ 21) (by omega) (by omega),
      or_eq_add (k := 21) (b := t.day * 2 ^ 16) (by omega) (by omega),
      or_eq_add (k := 16) (b := t.hour * 2 ^ 11) (by omega) (by omega),
      or_eq_add (k := 11) (b := t.minute * 2 ^ 5) (by omega) (by omega),
      or_eq_add (k := 5) (b := t.second / 2 ^ 1) (by omega) (by omega)]
  have increment : t.encodeBits.increment10ms = t.encodeValid.increment10ms := by
    simp only [encodeBits, encodeValid]
    rw [show (1 : Nat) = 2 ^ 1 - 1 from rfl, and_mask]
    rfl
  have utcOffset : t.encodeBits.utcOffset = t.encodeValid.utcOffset := by
    simp only [encodeBits, encodeValid]
    cases t.utcOffset15min with
    | none => rfl
    | some o =>
      dsimp only
      rw [show (0x7F : Nat) = 2 ^ 7 - 1 from rfl, and_mask,
        or_eq_add (k := 7) (by simp [utcOffsetValid]) (by omega), ofI8]
      omega
  cases bits : t.encodeBits
  cases sums : t.encodeValid
  simp_all

/-- `decode` overflows on no bytes whatever. -/
theorem decode_run {σ : Type} {e : EncodedTimestamp} (fits : e.Fits) (s : σ) :
    (decode e : ExFat σ Timestamp) s = (.ok {
      year := e.packed / 2 ^ 25 + minYear
      month := e.packed / 2 ^ 21 % 2 ^ 4
      day := e.packed / 2 ^ 16 % 2 ^ 5
      hour := e.packed / 2 ^ 11 % 2 ^ 5
      minute := e.packed / 2 ^ 5 % 2 ^ 6
      second := e.packed % 2 ^ 5 * 2 + e.increment10ms / 100
      centis := e.increment10ms % 100
      utcOffset15min := offsetOf e.utcOffset }, s) := by
  obtain ⟨packed, increment, _⟩ := fits
  have second : (u8 (((e.packed % 2 ^ 8 &&& 0x1F) <<< 1) % 2 ^ 8 + e.increment10ms / 100) : ExFat σ Nat) s =
      (.ok (e.packed % 2 ^ 5 * 2 + e.increment10ms / 100), s) := by
    have low : ((e.packed % 2 ^ 8 &&& 0x1F) <<< 1) % 2 ^ 8 = e.packed % 2 ^ 5 * 2 := by
      rw [show (0x1F : Nat) = 2 ^ 5 - 1 from rfl, and_mask, Nat.shiftLeft_eq]
      omega
    rw [low, u8, if_pos (by omega)]
    rfl
  have year : (u16 ((e.packed >>> 25) % 2 ^ 16 + minYear) : ExFat σ Nat) s =
      (.ok (e.packed / 2 ^ 25 + minYear), s) := by
    have high : (e.packed >>> 25) % 2 ^ 16 = e.packed / 2 ^ 25 := by
      rw [Nat.shiftRight_eq_div_pow]
      omega
    rw [high, u16, if_pos (by simp only [minYear]; omega)]
    rfl
  have field : ∀ k m, m ≤ 8 → (e.packed >>> k) % 2 ^ 8 &&& (2 ^ m - 1) = e.packed / 2 ^ k % 2 ^ m := by
    intro k m narrow
    rw [and_mask, Nat.shiftRight_eq_div_pow, Nat.mod_mod_of_dvd _ (Nat.pow_dvd_pow 2 narrow)]
  rw [decode]
  refine (Exec.bind_of_ok second).trans ((Exec.bind_of_ok year).trans ?_)
  rw [show (0x0F : Nat) = 2 ^ 4 - 1 from rfl, show (0x1F : Nat) = 2 ^ 5 - 1 from rfl,
    show (0x3F : Nat) = 2 ^ 6 - 1 from rfl,
    field 21 4 (by omega), field 16 5 (by omega), field 11 5 (by omega), field 5 6 (by omega)]
  rfl

/-- Seven bits are enough for the offsets of all time zones. -/
theorem offsetOf_encodeValid {t : Timestamp} (valid : t.isValid = true) :
    offsetOf t.encodeValid.utcOffset = t.utcOffset15min := by
  have range := (ranges valid).offset
  cases offset : t.utcOffset15min with
  | none => simp [encodeValid, offset, offsetOf]
  | some o =>
    obtain ⟨low, high⟩ := range o offset
    have small : (o % 128).toNat < 128 := by omega
    have flagged : ∀ b < 128, (utcOffsetValid + b) &&& utcOffsetValid ≠ 0 := by decide
    simp only [encodeValid, offset, offsetOf]
    rw [if_pos (flagged _ small), Nat.shiftLeft_eq]
    have shifted : (utcOffsetValid + (o % 128).toNat) * 2 ^ 1 % 2 ^ 8 = 2 * (o % 128).toNat := by
      simp only [utcOffsetValid]
      omega
    rw [shifted, asI8, Int.shiftRight_eq_div_pow]
    split <;> simp only [Option.some.injEq] <;> omega

theorem decode_encodeValid {σ : Type} {t : Timestamp} (valid : t.isValid = true) (s : σ) :
    (decode t.encodeValid : ExFat σ Timestamp) s = (.ok t, s) := by
  obtain ⟨year, month, day, hour, minute, second, centis, _⟩ := ranges valid
  have packed : t.encodeValid.packed = (t.year - minYear) * 2 ^ 25 + t.month * 2 ^ 21 + t.day * 2 ^ 16 +
    t.hour * 2 ^ 11
      + t.minute * 2 ^ 5 + t.second / 2 := rfl
  have increment : t.encodeValid.increment10ms = t.second % 2 * 100 + t.centis := rfl
  rw [decode_run (encodeValid_fits valid), offsetOf_encodeValid valid]
  congr 2
  have yearField : t.encodeValid.packed / 2 ^ 25 + minYear = t.year := by omega
  have monthField : t.encodeValid.packed / 2 ^ 21 % 2 ^ 4 = t.month := by omega
  have dayField : t.encodeValid.packed / 2 ^ 16 % 2 ^ 5 = t.day := by omega
  have hourField : t.encodeValid.packed / 2 ^ 11 % 2 ^ 5 = t.hour := by omega
  have minuteField : t.encodeValid.packed / 2 ^ 5 % 2 ^ 6 = t.minute := by omega
  have secondField : t.encodeValid.packed % 2 ^ 5 * 2 + t.encodeValid.increment10ms / 100 = t.second := by omega
  have centisField : t.encodeValid.increment10ms % 100 = t.centis := by omega
  rw [yearField, monthField, dayField, hourField, minuteField, secondField, centisField]

/-- What an encoded timestamp is sorted by, the more significant part first. -/
def key (t : EncodedTimestamp) : List Nat := [t.packed, t.increment10ms]

/-- The fields but the offset, the more significant one first. -/
def fields (t : Timestamp) : List Nat := [t.year, t.month, t.day, t.hour, t.minute, t.second, t.centis]

/-- Numbers with a last digit below `m` compare as their parts do. -/
theorem digits_lt {m a b a' b' : Nat} (small : b < m) (small' : b' < m) (rest rest' : List Nat) :
    (a * m + b) :: rest < (a' * m + b') :: rest' ↔ a :: b :: rest < a' :: b' :: rest' := by
  have digit : ∀ x y, y < m → (x * m + y) / m = x ∧ (x * m + y) % m = y := by
    intro x y low
    rw [Nat.add_comm, Nat.mul_comm]
    exact ⟨by rw [Nat.add_mul_div_left _ _ (by omega), Nat.div_eq_of_lt low, Nat.zero_add],
      by rw [Nat.add_mul_mod_self_left, Nat.mod_eq_of_lt low]⟩
  have same : a * m + b = a' * m + b' ↔ a = a' ∧ b = b' := by
    refine ⟨fun equal => ?_, fun equal => by rw [equal.1, equal.2]⟩
    have first := digit a b small
    rw [equal, (digit a' b' small').1, (digit a' b' small').2] at first
    exact ⟨first.1.symm, first.2.symm⟩
  have less : a * m + b < a' * m + b' ↔ a < a' ∨ a = a' ∧ b < b' := by
    rcases Nat.lt_trichotomy a a' with before | rfl | after
    · have room := Nat.mul_le_mul_right m before
      rw [Nat.succ_mul] at room
      exact iff_of_true (by omega) (Or.inl before)
    · simp
    · have room := Nat.mul_le_mul_right m after
      rw [Nat.succ_mul] at room
      exact iff_of_false (by omega) (by omega)
  rw [List.cons_lt_cons_iff, List.cons_lt_cons_iff, List.cons_lt_cons_iff, less, same]
  tauto

theorem tail_lt {x x' : Nat} {l l' m m' : List Nat} (tails : l < l' ↔ m < m') :
    x :: l < x' :: l' ↔ x :: m < x' :: m' := by
  rw [List.cons_lt_cons_iff, List.cons_lt_cons_iff, tails]

theorem eq_iff_not_lt (l l' : List Nat) : l = l' ↔ ¬ l < l' ∧ ¬ l' < l := by
  constructor
  · rintro rfl
    exact ⟨List.lt_irrefl l, List.lt_irrefl l⟩
  · rintro ⟨below, above⟩
    exact List.le_antisymm (List.not_lt.mp above) (List.not_lt.mp below)

/-- The encoding keeps the order. -/
theorem key_lt_iff {t t' : Timestamp} (valid : t.isValid = true) (valid' : t'.isValid = true) :
    key t.encodeValid < key t'.encodeValid ↔ t.fields < t'.fields := by
  have r := ranges valid
  have r' := ranges valid'
  have packed : ∀ u : Timestamp, u.encodeValid.packed =
      (((((u.year - minYear) * 2 ^ 4 + u.month) * 2 ^ 5 + u.day) * 2 ^ 5 + u.hour) * 2 ^ 6 + u.minute) * 2 ^ 5 +
        u.second / 2 := by
    intro u
    simp only [encodeValid]
    omega
  have seconds : [t.second / 2, t.encodeValid.increment10ms] < [t'.second / 2, t'.encodeValid.increment10ms] ↔
      [t.second, t.centis] < [t'.second, t'.centis] := by
    have centis := r.centis
    have centis' := r'.centis
    simp only [encodeValid, List.cons_lt_cons_iff, List.lt_irrefl, and_false, or_false]
    omega
  have year : ∀ l l' : List Nat, (t.year - minYear) :: l < (t'.year - minYear) :: l' ↔ t.year :: l <
      t'.year :: l' := by
    intro l l'
    have low := r.year.1
    have low' := r'.year.1
    rw [List.cons_lt_cons_iff, List.cons_lt_cons_iff]
    have same : t.year - minYear = t'.year - minYear ↔ t.year = t'.year := by omega
    have less : t.year - minYear < t'.year - minYear ↔ t.year < t'.year := by omega
    rw [same, less]
  have second := r.second
  have second' := r'.second
  rw [key, key, packed, packed, digits_lt (by omega) (by omega), digits_lt r.minute r'.minute,
    digits_lt r.hour r'.hour,
    digits_lt r.day r'.day, digits_lt r.month r'.month, year]
  exact tail_lt (tail_lt (tail_lt (tail_lt (tail_lt seconds))))

/-- Timestamps survive their encoding: a valid one is decoded as it was, in
every field, and the packed word with the increment compares as the fields do.
Whatever bytes a directory entry has, decoding them overflows nowhere. -/
theorem decode_encode {σ : Type} (s : σ) :
    (∀ t : Timestamp, t.isValid = true → (t.encode : ExFat σ EncodedTimestamp) s = (.ok t.encodeBits, s) ∧
      (decode t.encodeBits : ExFat σ Timestamp) s = (.ok t, s)) ∧
    (∀ t t' : Timestamp, t.isValid = true → t'.isValid = true →
      (key t.encodeBits < key t'.encodeBits ↔ t.fields < t'.fields) ∧
      (key t.encodeBits = key t'.encodeBits ↔ t.fields = t'.fields)) ∧
    ∀ e : EncodedTimestamp, e.Fits → ∃ t, (decode e : ExFat σ Timestamp) s = (.ok t, s) := by
  refine ⟨?_, ?_, fun e fits => ⟨_, decode_run fits s⟩⟩
  · intro t valid
    rw [encodeBits_eq valid, encode, Exec.bind_of_ok (Exec.assert_of valid s)]
    exact ⟨rfl, decode_encodeValid valid s⟩
  · intro t t' valid valid'
    rw [encodeBits_eq valid, encodeBits_eq valid']
    have less := key_lt_iff valid valid'
    have more := key_lt_iff valid' valid
    exact ⟨less, by rw [eq_iff_not_lt, eq_iff_not_lt, less, more]⟩

/-- An odd second, some hundredths, and an offset west of Greenwich. -/
theorem decode_encode_west :
    (decode (⟨2026, 8, 11, 14, 30, 37, 25, some (-20)⟩ : Timestamp).encodeBits : ExFat Unit Timestamp) () =
      (.ok ⟨2026, 8, 11, 14, 30, 37, 25, some (-20)⟩, ()) :=
  ((decode_encode ()).1 ⟨2026, 8, 11, 14, 30, 37, 25, some (-20)⟩ (by decide)).2

end Timestamp

end ExFatSlim
