import Mathlib.Algebra.GroupWithZero.Nat
import Mathlib.Logic.Function.Basic
import Mathlib.Data.List.Basic
import Mathlib.Tactic.Common

/-- A block of `size` bytes. -/
abbrev Block (size : Nat) := Fin size → UInt8

namespace Block

variable {size : Nat}

/-- The byte at an offset, and zero past the end. -/
def byte (b : Block size) (i : Nat) : UInt8 := if h : i < size then b ⟨i, h⟩ else 0

/-- The bytes `[start, start + len)`. -/
def slice (b : Block size) (start len : Nat) : List UInt8 :=
  (List.range len).map fun k => b.byte (start + k)

/-- Copies `bytes` over the block from `start` on. -/
def patch (b : Block size) (start : Nat) (bytes : List UInt8) : Block size := fun i =>
  if start ≤ i.val then (bytes[i.val - start]?).getD (b i) else b i

/-- The little-endian number in the bytes `[start, start + len)`. -/
def le (b : Block size) (start len : Nat) : Nat :=
  (b.slice start len).foldr (fun x rest => x.toNat + 256 * rest) 0

/-- The `size / len` chunks of a block, `as_chunks::<len>()`. -/
def chunk (b : Block size) (len k : Nat) : Block len := fun i => b.byte (k * len + i.val)

end Block

/-- `v` in `len` little-endian bytes. -/
def leBytes : Nat → Nat → List UInt8
  | 0, _ => []
  | len + 1, v => UInt8.ofNat v :: leBytes len (v / 256)

/-- The little-endian number that a list of bytes stands for. -/
def leNat (bytes : List UInt8) : Nat := bytes.foldr (fun x rest => x.toNat + 256 * rest) 0

@[simp] theorem leNat_nil : leNat [] = 0 := rfl

@[simp] theorem leNat_cons (x : UInt8) (bytes : List UInt8) :
    leNat (x :: bytes) = x.toNat + 256 * leNat bytes := rfl

@[simp] theorem length_leBytes (len v : Nat) : (leBytes len v).length = len := by
  induction len generalizing v with
  | zero => rfl
  | succ len ih => simp [leBytes, ih]

theorem leNat_leBytes (len v : Nat) : leNat (leBytes len v) = v % 256 ^ len := by
  induction len generalizing v with
  | zero => simp [leBytes, Nat.mod_one]
  | succ len ih =>
    rw [leBytes, leNat_cons, ih, Nat.pow_succ, Nat.mul_comm (256 ^ len), Nat.mod_mul]
    simp

theorem leNat_lt (bytes : List UInt8) : leNat bytes < 256 ^ bytes.length := by
  induction bytes with
  | nil => decide
  | cons x bytes ih =>
    have small := x.toNat_lt
    rw [leNat_cons, List.length_cons, Nat.pow_succ]
    omega

namespace Block

variable {size : Nat}

theorem ext_byte {a b : Block size} (same : ∀ i < size, a.byte i = b.byte i) : a = b := by
  funext i
  simpa [byte, i.isLt] using same i.val i.isLt

theorem byte_patch (b : Block size) (start : Nat) (bytes : List UInt8) (i : Nat) :
    (b.patch start bytes).byte i =
      if i < size ∧ start ≤ i ∧ i < start + bytes.length then (bytes[i - start]?).getD 0
      else b.byte i := by
  unfold byte patch
  by_cases inside : i < size
  · by_cases after : start ≤ i
    · by_cases before : i < start + bytes.length
      · have bound : i - start < bytes.length := by omega
        simp [inside, after, before, bound]
      · have past : bytes.length ≤ i - start := by omega
        simp [inside, after, before, past]
    · simp [inside, after]
  · simp [inside]

/-- Outside of the patched bytes nothing changes. -/
theorem byte_patch_outside (b : Block size) {start : Nat} {bytes : List UInt8} {i : Nat}
    (outside : i < start ∨ start + bytes.length ≤ i) : (b.patch start bytes).byte i = b.byte i := by
  rw [byte_patch, if_neg]
  omega

theorem byte_patch_inside (b : Block size) {start : Nat} {bytes : List UInt8} {k : Nat}
    (fits : start + k < size) (inside : k < bytes.length) :
    (b.patch start bytes).byte (start + k) = bytes[k] := by
  rw [byte_patch, if_pos ⟨fits, Nat.le_add_right _ _, by omega⟩]
  simp [inside]

@[simp] theorem length_slice (b : Block size) (start len : Nat) : (b.slice start len).length = len := by
  simp [slice]

theorem slice_eq_of {a b : Block size} {start len : Nat}
    (same : ∀ k < len, a.byte (start + k) = b.byte (start + k)) : a.slice start len = b.slice start len := by
  refine List.map_congr_left fun k member => same k ?_
  simpa using member

theorem slice_patch_same (b : Block size) {start : Nat} {bytes : List UInt8}
    (fits : start + bytes.length ≤ size) : (b.patch start bytes).slice start bytes.length = bytes := by
  apply List.ext_getElem
  · simp
  intro k inside bound
  simp only [slice, List.getElem_map, List.getElem_range]
  exact b.byte_patch_inside (by omega) bound

theorem slice_patch_inner (b : Block size) {start i len : Nat} {bytes : List UInt8}
    (fits : start + i + len ≤ size) (inside : i + len ≤ bytes.length) :
    (b.patch start bytes).slice (start + i) len = (bytes.drop i).take len := by
  apply List.ext_getElem
  · simp
    omega
  intro k bound bound'
  simp only [slice, List.getElem_map, List.getElem_range, List.getElem_take, List.getElem_drop]
  rw [length_slice] at bound
  rw [Nat.add_assoc]
  exact b.byte_patch_inside (by omega) (by omega)

theorem slice_patch_apart (b : Block size) {start len place : Nat} {bytes : List UInt8}
    (apart : start + len ≤ place ∨ place + bytes.length ≤ start) :
    (b.patch place bytes).slice start len = b.slice start len :=
  slice_eq_of fun k inside => b.byte_patch_outside (by omega)

/-- Patches of different places commute. -/
theorem patch_comm (b : Block size) {i j : Nat} {xs ys : List UInt8} (apart : i + xs.length ≤ j ∨ j + ys.length ≤ i) :
    (b.patch i xs).patch j ys = (b.patch j ys).patch i xs := by
  apply ext_byte
  intro m inside
  simp only [byte_patch]
  split_ifs <;> first | rfl | omega

theorem patch_patch_same (b : Block size) (i : Nat) {xs ys : List UInt8} (covered : xs.length ≤ ys.length) :
    (b.patch i xs).patch i ys = b.patch i ys := by
  apply ext_byte
  intro m inside
  simp only [byte_patch]
  split_ifs <;> first | rfl | omega

@[simp] theorem patch_nil (b : Block size) (i : Nat) : b.patch i [] = b := by
  apply ext_byte
  intro m inside
  rw [byte_patch, if_neg (by simp only [List.length_nil]; omega)]

/-- Two patches side by side are one. -/
theorem patch_append (b : Block size) (i : Nat) (xs ys : List UInt8) :
    (b.patch i xs).patch (i + xs.length) ys = b.patch i (xs ++ ys) := by
  apply ext_byte
  intro m inside
  simp only [byte_patch, List.length_append]
  by_cases first : m < i + xs.length
  · rw [if_neg (by omega)]
    split_ifs with here there there
    · rw [List.getElem?_append_left (by omega)]
    · omega
    · omega
    · rfl
  · by_cases second : m < i + xs.length + ys.length
    · rw [if_pos (by omega), if_pos (by omega), List.getElem?_append_right (by omega), Nat.sub_add_eq]
    · rw [if_neg (by omega), if_neg (by omega), if_neg (by omega)]

/-- A chunk put where it was taken from. -/
theorem patch_chunk_self {len : Nat} (b : Block size) {i : Nat} :
    b.patch (i * len) ((b.chunk len i).slice 0 len) = b := by
  apply ext_byte
  intro m inside
  by_cases after : i * len ≤ m ∧ m < i * len + len
  · obtain ⟨k, rfl⟩ : ∃ k, m = i * len + k := ⟨m - i * len, by omega⟩
    have inner : k < ((b.chunk len i).slice 0 len).length := by
      rw [length_slice]
      omega
    rw [byte_patch_inside _ inside inner]
    simp only [slice, List.getElem_map, List.getElem_range, Nat.zero_add]
    rw [byte, dif_pos (by omega)]
    rfl
  · rw [byte_patch_outside _ (by rw [length_slice]; omega)]

/-- A patch within a patch. -/
theorem patch_patch_within {len : Nat} (b : Block size) (part : Block len) {i j : Nat} {xs : List UInt8}
    (within : j + xs.length ≤ len) :
    (b.patch i (part.slice 0 len)).patch (i + j) xs = b.patch i ((part.patch j xs).slice 0 len) := by
  apply ext_byte
  intro m inside
  by_cases after : i ≤ m ∧ m < i + len
  · obtain ⟨k, rfl⟩ : ∃ k, m = i + k := ⟨m - i, by omega⟩
    have inner : k < ((part.patch j xs).slice 0 len).length := by
      rw [length_slice]
      omega
    have outer : k < (part.slice 0 len).length := by
      rw [length_slice]
      omega
    rw [byte_patch_inside _ inside inner]
    simp only [slice, List.getElem_map, List.getElem_range, Nat.zero_add]
    by_cases here : j ≤ k ∧ k < j + xs.length
    · obtain ⟨d, rfl⟩ : ∃ d, k = j + d := ⟨k - j, by omega⟩
      have bound : d < xs.length := by omega
      rw [← Nat.add_assoc, byte_patch_inside _ (by omega) bound, byte_patch_inside _ (by omega) bound]
    · rw [byte_patch_outside _ (by omega), byte_patch_outside part (by omega)]
      have shown := b.byte_patch_inside inside outer
      simpa [slice] using shown
  · rw [byte_patch_outside _ (by omega), byte_patch_outside _ (by rw [length_slice]; omega),
      byte_patch_outside _ (by rw [length_slice]; omega)]

theorem le_eq_leNat (b : Block size) (start len : Nat) : b.le start len = leNat (b.slice start len) := rfl

theorem le_lt (b : Block size) (start len : Nat) : b.le start len < 256 ^ len := by
  have small := leNat_lt (b.slice start len)
  rw [length_slice] at small
  exact small

theorem le_patch_same (b : Block size) {start len v : Nat} (fits : start + len ≤ size) :
    (b.patch start (leBytes len v)).le start len = v % 256 ^ len := by
  have whole : (b.patch start (leBytes len v)).slice start (leBytes len v).length = leBytes len v :=
    b.slice_patch_same (by simpa using fits)
  rw [length_leBytes] at whole
  rw [le_eq_leNat, whole, leNat_leBytes]

theorem le_patch_apart (b : Block size) {start len place : Nat} {bytes : List UInt8}
    (apart : start + len ≤ place ∨ place + bytes.length ≤ start) :
    (b.patch place bytes).le start len = b.le start len := by
  rw [le_eq_leNat, slice_patch_apart b apart, ← le_eq_leNat]

end Block
