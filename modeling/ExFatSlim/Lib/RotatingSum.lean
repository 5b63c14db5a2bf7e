import Mathlib.Algebra.BigOperators.Group.Finset.Basic
import Mathlib.Algebra.BigOperators.Ring.Finset
import Mathlib.Data.Nat.ModEq

namespace RotatingSum

variable {w : Nat}

/-- The word rotated to the right by one bit. -/
def rotateRight (w h : Nat) : Nat := h % 2 * 2 ^ (w - 1) + h / 2

/-- The sum of numbers in a word that is rotated before each addition, modulo the size of the word. -/
def wrapping (w : Nat) (bytes : List Nat) (h : Nat) : Nat :=
  bytes.foldl (fun h b => (rotateRight w h + b) % 2 ^ w) h

/-- The sum, if every addition fits into the word. -/
def checked (w : Nat) : List Nat → Nat → Option Nat
  | [], h => some h
  | b :: bytes, h => if rotateRight w h + b < 2 ^ w then checked w bytes (rotateRight w h + b) else none

/-- The sum of the first `k` numbers without any word: each is doubled `w - 1` times for every number from it on. -/
def spread (w : Nat) (bytes : List Nat) (k : Nat) : Nat :=
  ∑ i ∈ Finset.range k, bytes.getD i 0 * 2 ^ ((w - 1) * (k - i))

/-- The number in `1 .. m` that is `s` modulo `m`, and zero for zero alone. -/
def residue (m s : Nat) : Nat := if s = 0 then 0 else (s - 1) % m + 1

/-- Each number fits beside what the ones before it come to. -/
def CarryFree (w : Nat) (bytes : List Nat) : Prop :=
  ∀ k < bytes.length, residue (2 ^ w - 1) (spread w bytes k) + bytes.getD k 0 < 2 ^ w

instance (w : Nat) (bytes : List Nat) : Decidable (CarryFree w bytes) :=
  inferInstanceAs (Decidable (∀ k < bytes.length, _))

theorem getD_of_lt {bytes : List Nat} {k : Nat} (inside : k < bytes.length) : bytes.getD k 0 = bytes[k] := by
  simp [inside]

theorem spread_succ (w : Nat) (bytes : List Nat) (k : Nat) :
    spread w bytes (k + 1) = (spread w bytes k + bytes.getD k 0) * 2 ^ (w - 1) := by
  have shift : ∀ i ∈ Finset.range k, bytes.getD i 0 * 2 ^ ((w - 1) * (k + 1 - i)) =
      bytes.getD i 0 * 2 ^ ((w - 1) * (k - i)) * 2 ^ (w - 1) := by
    intro i member
    have below := Finset.mem_range.mp member
    rw [show k + 1 - i = k - i + 1 by omega, Nat.mul_succ, Nat.pow_add, Nat.mul_assoc]
  rw [spread, spread, Finset.sum_range_succ, Finset.sum_congr rfl shift, ← Finset.sum_mul, Nat.add_mul,
    show k + 1 - k = 1 by omega, Nat.mul_one]

theorem residue_le {m : Nat} (pos : 0 < m) (s : Nat) : residue m s ≤ m := by
  unfold residue
  split
  · omega
  · exact Nat.mod_lt _ pos

theorem residue_modEq (m s : Nat) : residue m s ≡ s [MOD m] := by
  unfold residue
  split
  · rename_i zero
    rw [zero]
  · have next := (Nat.mod_modEq (s - 1) m).add_right 1
    rwa [Nat.sub_add_cancel (by omega)] at next

theorem residue_eq_zero {m s : Nat} : residue m s = 0 ↔ s = 0 := by
  unfold residue
  split <;> simp_all

/-- The residue of a number is the only one in its range. -/
theorem eq_residue {m r s : Nat} (most : r ≤ m) (same : r ≡ s [MOD m]) (zero : r = 0 ↔ s = 0) : r = residue m s := by
  unfold residue
  split
  · rename_i none_
    exact zero.mpr none_
  · rename_i some_
    have pos : r ≠ 0 := fun none_ => some_ (zero.mp none_)
    have before : r - 1 ≡ s - 1 [MOD m] := by
      refine Nat.ModEq.add_right_cancel' 1 ?_
      rwa [Nat.sub_add_cancel (by omega), Nat.sub_add_cancel (by omega)]
    have small : (r - 1) % m = r - 1 := Nat.mod_eq_of_lt (by omega)
    have equal : (r - 1) % m = (s - 1) % m := before
    omega

theorem half_twice (pos : 0 < w) : 2 * 2 ^ (w - 1) = 2 ^ w := by
  rw [← Nat.pow_succ', Nat.succ_eq_add_one, Nat.sub_add_cancel pos]

/-- Rotating to the right is multiplying by the half of the word. -/
theorem rotateRight_eq_residue (pos : 0 < w) {h : Nat} (small : h < 2 ^ w) :
    rotateRight w h = residue (2 ^ w - 1) (h * 2 ^ (w - 1)) := by
  have half := half_twice pos
  have split := Nat.mod_add_div h 2
  have bit := Nat.mod_lt h (show 0 < 2 by decide)
  have some_ : 0 < 2 ^ (w - 1) := Nat.two_pow_pos _
  have product : h * 2 ^ (w - 1) = rotateRight w h + (2 ^ w - 1) * (h / 2) := by
    have whole : h * 2 ^ (w - 1) = (h % 2 + 2 * (h / 2)) * 2 ^ (w - 1) := by rw [split]
    have spare : (2 ^ w - 1) * (h / 2) + h / 2 = 2 ^ w * (h / 2) := by
      rw [← Nat.succ_mul, Nat.succ_eq_add_one, Nat.sub_add_cancel (Nat.one_le_two_pow)]
    rw [whole, rotateRight, Nat.add_mul, Nat.mul_right_comm, half]
    omega
  refine eq_residue ?_ ?_ ?_
  · rcases Nat.mod_two_eq_zero_or_one h with even | odd
    · simp only [rotateRight, even]
      omega
    · simp only [rotateRight, odd]
      omega
  · rw [product]
    exact (Nat.modEq_iff_dvd' (Nat.le_add_right _ _)).mpr
      (by rw [Nat.add_sub_cancel_left]; exact Nat.dvd_mul_right _ _)
  · rw [Nat.mul_eq_zero]
    simp only [rotateRight]
    rcases Nat.mod_two_eq_zero_or_one h with even | odd
    · rw [even]
      omega
    · rw [odd]
      omega

/-- What the first `k` numbers come to, rotated, when none of them was too much. -/
theorem rotateRight_wrapping (pos : 0 < w) (bytes : List Nat) : ∀ k ≤ bytes.length,
    (∀ j < k, residue (2 ^ w - 1) (spread w bytes j) + bytes.getD j 0 < 2 ^ w) →
    wrapping w (bytes.take k) 0 < 2 ^ w ∧
      rotateRight w (wrapping w (bytes.take k) 0) = residue (2 ^ w - 1) (spread w bytes k) := by
  intro k
  induction k with
  | zero =>
    intro _ _
    exact ⟨Nat.two_pow_pos w, by simp [wrapping, rotateRight, spread, residue]⟩
  | succ k ih =>
    intro within fits
    obtain ⟨_, before⟩ := ih (by omega) fun j below => fits j (by omega)
    have here := fits k (Nat.lt_succ_self k)
    have inside : k < bytes.length := within
    have last : bytes.getD k 0 = bytes[k] := getD_of_lt inside
    have step : wrapping w (bytes.take (k + 1)) 0 = residue (2 ^ w - 1) (spread w bytes k) + bytes.getD k 0 := by
      rw [← List.take_concat_get' bytes k inside, wrapping, List.foldl_append, List.foldl_cons, List.foldl_nil]
      change (rotateRight w (wrapping w (bytes.take k) 0) + bytes[k]) % 2 ^ w = _
      rw [before, ← last, Nat.mod_eq_of_lt here]
    refine ⟨by rw [step]; exact here, ?_⟩
    rw [step, rotateRight_eq_residue pos here, spread_succ]
    have most : ∀ s, residue (2 ^ w - 1) s ≤ 2 ^ w - 1 := residue_le (by
      have := half_twice pos
      have := Nat.two_pow_pos (w - 1)
      omega)
    refine eq_residue (most _) ((residue_modEq _ _).trans ?_) ?_
    · exact ((residue_modEq _ _).add_right _).mul_right _
    · rw [residue_eq_zero, Nat.mul_eq_zero, Nat.mul_eq_zero, Nat.add_eq_zero_iff, Nat.add_eq_zero_iff,
        residue_eq_zero]

theorem checked_eq (bytes : List Nat) : ∀ (h : Nat), checked w bytes h =
    if ∀ k (inside : k < bytes.length), rotateRight w (wrapping w (bytes.take k) h) + bytes[k] < 2 ^ w then
      some (wrapping w bytes h)
    else none := by
  induction bytes with
  | nil => intro h; simp [checked, wrapping]
  | cons b bytes ih =>
    intro h
    rw [checked]
    by_cases fits : rotateRight w h + b < 2 ^ w
    · have step : ∀ xs, wrapping w (b :: xs) h = wrapping w xs (rotateRight w h + b) := by
        intro xs
        rw [wrapping, List.foldl_cons, Nat.mod_eq_of_lt fits]
        rfl
      rw [if_pos fits, ih, step]
      congr 1
      refine propext ⟨fun rest k inside => ?_, fun all k inside => ?_⟩
      · cases k with
        | zero => exact fits
        | succ k =>
          rw [List.take_succ_cons, step, List.getElem_cons_succ]
          exact rest k (by simpa using inside)
      · have later := all (k + 1) (by simpa using inside)
        rwa [List.take_succ_cons, step, List.getElem_cons_succ] at later
    · rw [if_neg fits, if_neg]
      intro all
      exact fits (all 0 (by simp))

/-- The sum fits at every step exactly when each number does beside the residue of those before
it, and then it is the sum modulo the size of the word. -/
theorem checked_eq_some_iff (pos : 0 < w) {bytes : List Nat} {h : Nat} :
    checked w bytes 0 = some h ↔ CarryFree w bytes ∧ wrapping w bytes 0 = h := by
  have steps : (∀ k (inside : k < bytes.length), rotateRight w (wrapping w (bytes.take k) 0) + bytes[k] < 2 ^ w) ↔
      CarryFree w bytes := by
    constructor
    · intro all k
      induction k using Nat.strong_induction_on with
      | h k ih =>
        intro inside
        obtain ⟨_, same⟩ := rotateRight_wrapping pos bytes k inside.le fun j below => ih j below (below.trans inside)
        rw [← same, getD_of_lt inside]
        exact all k inside
    · intro free k inside
      obtain ⟨_, same⟩ := rotateRight_wrapping pos bytes k inside.le fun j below => free j (below.trans inside)
      rw [same, ← getD_of_lt inside]
      exact free k inside
  rw [checked_eq]
  by_cases free : CarryFree w bytes
  · rw [if_pos (steps.mpr free)]
    simp [free]
  · rw [if_neg fun all => free (steps.mp all)]
    simp [free]

end RotatingSum
