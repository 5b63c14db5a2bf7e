import ExFatSlim.Lookup
import ExFatSlim.Lib.RotatingSum

namespace ExFatSlim

open RotatingSum

/-- The little-endian bytes of the up-cased units of a name. -/
def nameBytes (table : UpcaseTable) (units : List Nat) : List Nat :=
  units.flatMap fun c => [table.upcase c % 256, table.upcase c / 256 % 256]

/-- The name hash of the exFAT specification. -/
def exFatHash (table : UpcaseTable) (units : List Nat) : Nat := wrapping 16 (nameBytes table units) 0

/-- A name that `encode_utf16_upcase_and_hash` has no reason to refuse. -/
structure Accepted (name : List Char) : Prop where
  notReserved : ¬ (name = ['.'] ∨ name = ['.', '.'])
  nonempty : encodeUtf16 name ≠ []
  legal : ∀ c ∈ encodeUtf16 name, isIllegalNameChar c = false

instance (name : List Char) : Decidable (Accepted name) :=
  decidable_of_iff (¬ (name = ['.'] ∨ name = ['.', '.']) ∧ encodeUtf16 name ≠ [] ∧ ∀ c ∈ encodeUtf16 name,
    isIllegalNameChar c = false)
    ⟨fun ⟨notReserved, nonempty, legal⟩ => ⟨notReserved, nonempty, legal⟩,
      fun ⟨notReserved, nonempty, legal⟩ => ⟨notReserved, nonempty, legal⟩⟩

variable {σ : Type} {table : UpcaseTable}

/-- A sum that is stored, or a panic. -/
def stored : Option Nat → Except (Fault ExFatError) Nat
  | some hash => .ok hash
  | none => .error .panic

theorem hashByte_run (hash byte : Nat) (s : σ) : (hashByte hash byte : ExFat σ Nat) s =
    (stored (if rotateRight 16 hash + byte < 2 ^ 16 then some (rotateRight 16 hash + byte) else none), s) := by
  have rotated : (if hash % 2 = 1 then 0x8000 else 0) + hash / 2 = rotateRight 16 hash := by
    rw [rotateRight]
    rcases Nat.mod_two_eq_zero_or_one hash with even | odd
    · rw [even]
      rfl
    · rw [odd]
      rfl
  rw [hashByte, rotated, u16]
  split <;> rfl

theorem hashUnits_run (units : List Nat) (legal : ∀ c ∈ units, isIllegalNameChar c = false) : ∀ (hash : Nat) (s : σ),
    (hashUnits table units hash : ExFat σ Nat) s = (stored (checked 16 (nameBytes table units) hash), s) := by
  induction units with
  | nil => exact fun _ _ => rfl
  | cons c units ih =>
    intro hash s
    have rest := ih fun d member => legal d (List.mem_cons_of_mem c member)
    rw [hashUnits, legal c List.mem_cons_self, nameBytes, List.flatMap_cons, List.cons_append, List.cons_append,
      List.nil_append, checked]
    have low := hashByte_run hash (table.upcase c % 256) s
    by_cases fits : rotateRight 16 hash + table.upcase c % 256 < 2 ^ 16
    · rw [if_pos fits] at low ⊢
      rw [checked]
      have high := hashByte_run (rotateRight 16 hash + table.upcase c % 256) (table.upcase c / 256 % 256) s
      refine (Exec.bind_of_ok low).trans ?_
      split
      · rename_i fits'
        rw [if_pos fits'] at high
        exact (Exec.bind_of_ok high).trans (rest _ s)
      · rename_i tooMuch
        rw [if_neg tooMuch] at high
        exact Exec.bind_of_error high
    · rw [if_neg fits] at low ⊢
      exact Exec.bind_of_error low

theorem encodeUtf16UpcaseAndHash_accepted {name : List Char} (accepted : Accepted name) (s : σ) :
    (encodeUtf16UpcaseAndHash name table : ExFat σ (Nat × Nat)) s =
      ((stored (checked 16 (nameBytes table (encodeUtf16 name)) 0)).map fun hash =>
        (hash, (encodeUtf16 name).length), s) := by
  have hashed := @hashUnits_run _ table _ accepted.legal 0 s
  have some_ : (encodeUtf16 name).length ≠ 0 := fun none_ => accepted.nonempty (List.length_eq_zero_iff.mp none_)
  rw [encodeUtf16UpcaseAndHash, if_neg accepted.notReserved]
  cases sum : checked 16 (nameBytes table (encodeUtf16 name)) 0 with
  | none =>
    rw [sum] at hashed
    exact Exec.bind_of_error hashed
  | some hash =>
    rw [sum] at hashed
    exact (Exec.bind_of_ok hashed).trans (by simp only [if_neg some_]; rfl)

/-- A name that was hashed is accepted, and its hash is that of the specification. -/
theorem hashedName_ok {name : List Char} {hash count : Nat} (hashed : hashedName table name = .ok (hash, count)) :
    Accepted name ∧ hash = exFatHash table (encodeUtf16 name) ∧ count = (encodeUtf16 name).length := by
  have run := encodeUtf16UpcaseAndHash_run name table ()
  rw [hashed] at run
  have legal : ∀ (units : List Nat) (h h' : Nat), (hashUnits table units h : ExFat Unit Nat) () = (.ok h', ()) →
      ∀ c ∈ units, isIllegalNameChar c = false := by
    intro units
    induction units with
    | nil => exact fun _ _ _ c member => absurd member (List.not_mem_nil)
    | cons d units ih =>
      intro h h' run
      rw [hashUnits] at run
      cases illegal : isIllegalNameChar d with
      | true =>
        rw [illegal] at run
        cases run
      | false =>
        rw [illegal] at run
        obtain ⟨h₁, ⟨⟩, _, run⟩ := Exec.bind_eq_ok.mp run
        obtain ⟨h₂, ⟨⟩, _, run⟩ := Exec.bind_eq_ok.mp run
        exact List.forall_mem_cons.mpr ⟨illegal, ih _ _ run⟩
  have accepted : Accepted name := by
    rw [encodeUtf16UpcaseAndHash] at run
    by_cases reserved : name = ['.'] ∨ name = ['.', '.']
    · rw [if_pos reserved] at run
      cases run
    · rw [if_neg reserved] at run
      dsimp only at run
      obtain ⟨h, ⟨⟩, units, run⟩ := Exec.bind_eq_ok.mp run
      refine ⟨reserved, fun none_ => ?_, legal _ _ _ units⟩
      rw [none_] at run
      cases run
  refine ⟨accepted, ?_⟩
  rw [encodeUtf16UpcaseAndHash_accepted accepted ()] at run
  have outcome := (Prod.mk.inj run).1
  cases sum : checked 16 (nameBytes table (encodeUtf16 name)) 0 with
  | none =>
    rw [sum] at outcome
    cases outcome
  | some h =>
    rw [sum] at outcome
    cases outcome
    exact ⟨((checked_eq_some_iff (by decide)).mp sum).2.symm, rfl⟩

/-- `encode_utf16_upcase_and_hash` returns the hash of the specification exactly when each byte
fits into 16 bits beside the residue of those before it. -/
theorem name_hash_iff (table : UpcaseTable) {name : List Char} (accepted : Accepted name) (s : σ) :
    (encodeUtf16UpcaseAndHash name table : ExFat σ (Nat × Nat)) s =
      (.ok (exFatHash table (encodeUtf16 name), (encodeUtf16 name).length), s) ↔
    CarryFree 16 (nameBytes table (encodeUtf16 name)) := by
  rw [encodeUtf16UpcaseAndHash_accepted accepted]
  have fits := @checked_eq_some_iff 16 (by decide) (nameBytes table (encodeUtf16 name))
  constructor
  · intro run
    cases sum : checked 16 (nameBytes table (encodeUtf16 name)) 0 with
    | none =>
      rw [sum] at run
      cases run
    | some hash => exact (fits.mp sum).1
  · intro free
    rw [fits.mpr ⟨free, rfl⟩]
    rfl

theorem name_hash_iff_letters : (encodeUtf16UpcaseAndHash ['a', 'b'] .default : ExFat Unit (Nat × Nat)) () =
      (.ok (exFatHash .default [97, 98], 2), ()) ↔ CarryFree 16 [65, 0, 66, 0] :=
  name_hash_iff .default (by decide) ()

/-- The sum of an accepted name of six characters passes the 16 bits. -/
theorem name_hash_overflows : Accepted ['#', '#', '!', '!', '!', '6'] ∧
    (encodeUtf16UpcaseAndHash ['#', '#', '!', '!', '!', '6'] .default : ExFat Unit (Nat × Nat)) () =
      (.error .panic, ()) ∧
    exFatHash .default (encodeUtf16 ['#', '#', '!', '!', '!', '6']) < 2 ^ 16 := by
  refine ⟨by decide, by decide, by decide⟩

end ExFatSlim
