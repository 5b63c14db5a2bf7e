import Mathlib.Algebra.GroupWithZero.Nat
import ExFatSlim.Error

namespace ExFatSlim

/-- The first 128 entries of the up-case table. -/
structure UpcaseTable where
  mapping : Fin 128 → Nat

/-- Lower-case ASCII letters map to upper case, all else to itself. -/
def UpcaseTable.default : UpcaseTable where
  mapping i := if 97 ≤ i.val ∧ i.val ≤ 122 then i.val - 32 else i.val

def UpcaseTable.empty : UpcaseTable where
  mapping _ := 0

def UpcaseTable.upcase (t : UpcaseTable) (utf16Char : Nat) : Nat :=
  if h : utf16Char < 128 then t.mapping ⟨utf16Char, h⟩ else utf16Char

/-- The UTF-16 units of one character. -/
def encodeChar (c : Char) : List Nat :=
  if c.toNat < 0x10000 then [c.toNat]
  else [0xD800 + (c.toNat - 0x10000) / 0x400, 0xDC00 + (c.toNat - 0x10000) % 0x400]

/-- `str::encode_utf16`. A `&str` is the list of its characters here. -/
def encodeUtf16 (s : List Char) : List Nat := s.flatMap encodeChar

def isIllegalNameChar (c : Nat) : Bool :=
  c ≤ 0x001F || c ∈ [0x0022, 0x002A, 0x002F, 0x003A, 0x003C, 0x003E, 0x003F, 0x005C, 0x007C]

/-- An unsigned 16-bit sum, which panics on overflow. -/
def u16 {σ : Type} (x : Nat) : ExFat σ Nat := if x < 2 ^ 16 then pure x else Exec.panic

/-- An unsigned 32-bit result, which panics on overflow. -/
def u32 {σ : Type} (x : Nat) : ExFat σ Nat := if x < 2 ^ 32 then pure x else Exec.panic

/-- An unsigned 64-bit result, which panics on overflow. -/
def u64 {σ : Type} (x : Nat) : ExFat σ Nat := if x < 2 ^ 64 then pure x else Exec.panic

/-- An unsigned difference, which panics below zero. -/
def minus {σ : Type} (a b : Nat) : ExFat σ Nat := if b ≤ a then pure (a - b) else Exec.panic

/-- One byte of the name hash: the sum of the rotated hash and the byte has to fit. -/
def hashByte {σ : Type} (hash byte : Nat) : ExFat σ Nat :=
  u16 ((if hash % 2 = 1 then 0x8000 else 0) + hash / 2 + byte)

/-- The loop of `encode_utf16_upcase_and_hash`. -/
def hashUnits {σ : Type} (upcaseTable : UpcaseTable) : List Nat → Nat → ExFat σ Nat
  | [], hash => pure hash
  | c :: rest, hash => do
    if isIllegalNameChar c then
      Exec.raise (.invalidFileName "name contains an illegal character")
    let c := upcaseTable.upcase c
    let hash ← hashByte hash (c % 256)
    let hash ← hashByte hash (c / 256 % 256)
    hashUnits upcaseTable rest hash

/-- `encode_utf16_upcase_and_hash`, its reasons wrapped in `InvalidFileName` as
all of its callers do. -/
def encodeUtf16UpcaseAndHash {σ : Type} (s : List Char) (upcaseTable : UpcaseTable) :
    ExFat σ (Nat × Nat) := do
  if s = ['.'] ∨ s = ['.', '.'] then
    Exec.raise (.invalidFileName ". and .. are reserved names")
  let hash ← hashUnits upcaseTable (encodeUtf16 s) 0
  if (encodeUtf16 s).length = 0 then
    Exec.raise (.invalidFileName "name is empty")
  pure (hash, (encodeUtf16 s).length)

end ExFatSlim
