import Mathlib.Data.List.MinMax
import Mathlib.Tactic.Common

/-- The maximal runs of ones in a sequence of bits, as first positions and lengths. -/
def bitRuns : Nat → List Bool → List (Nat × Nat)
  | _, [] => []
  | c, false :: bits => bitRuns (c + 1) bits
  | c, true :: bits =>
    match bitRuns (c + 1) bits with
    | [] => [(c, 1)]
    | (first, length) :: runs => if first = c + 1 then (c, length + 1) :: runs else (c, 1) :: (first, length) :: runs

namespace BitRuns

variable {bits : List Bool} {c k : Nat}

/-- One more bit in front either makes the first run longer or opens a run of its own. -/
theorem cons_true (c : Nat) (bits : List Bool) :
    (∃ length runs, bitRuns (c + 1) bits = (c + 1, length) :: runs ∧ bitRuns c (true :: bits) =
      (c, length + 1) :: runs) ∨
    (∀ run ∈ (bitRuns (c + 1) bits).head?, run.1 ≠ c + 1) ∧ bitRuns c (true :: bits) =
      (c, 1) :: bitRuns (c + 1) bits := by
  rw [bitRuns]
  rcases bitRuns (c + 1) bits with _ | ⟨⟨first, length⟩, runs⟩
  · exact Or.inr ⟨by simp, rfl⟩
  · by_cases touches : first = c + 1
    · subst touches
      exact Or.inl ⟨length, runs, rfl, if_pos rfl⟩
    · exact Or.inr ⟨fun run member => by rwa [← Option.some.inj member], if_neg touches⟩

/-- Ones in front open a run at least as long. -/
theorem replicate_true (k : Nat) :
    ∀ c : Nat, ∃ length runs, bitRuns c (List.replicate (k + 1) true ++ bits) = (c, length) :: runs ∧
    k + 1 ≤ length := by
  induction k with
  | zero =>
    intro c
    rcases cons_true c bits with ⟨length, runs, _, longer⟩ | ⟨_, opened⟩
    · exact ⟨length + 1, runs, longer, Nat.le_add_left _ _⟩
    · exact ⟨1, _, opened, le_rfl⟩
  | succ k ih =>
    intro c
    obtain ⟨length, runs, here, enough⟩ := ih (c + 1)
    rw [List.replicate_succ, List.cons_append, bitRuns, here]
    exact ⟨length + 1, runs, if_pos rfl, Nat.succ_le_succ enough⟩

/-- Ones that are followed by no one are a run. -/
theorem replicate_closed (k : Nat) : ∀ c : Nat, (∀ run ∈ (bitRuns (c + (k + 1)) bits).head?, run.1 ≠ c + (k + 1)) →
    bitRuns c (List.replicate (k + 1) true ++ bits) = (c, k + 1) :: bitRuns (c + (k + 1)) bits := by
  induction k with
  | zero =>
    intro c apart
    rcases cons_true c bits with ⟨length, runs, here, _⟩ | ⟨_, opened⟩
    · rw [here] at apart
      exact absurd rfl (apart _ rfl)
    · exact opened
  | succ k ih =>
    intro c apart
    have shift : c + (k + 1 + 1) = c + 1 + (k + 1) := by omega
    rw [shift] at apart ⊢
    rw [List.replicate_succ, List.cons_append, bitRuns, ih (c + 1) apart]
    exact if_pos rfl

theorem start_le (bits : List Bool) : ∀ {c : Nat}, ∀ run ∈ bitRuns c bits, c ≤ run.1 := by
  induction bits with
  | nil => simp [bitRuns]
  | cons bit bits ih =>
    intro c run member
    cases bit with
    | false => exact Nat.le_of_succ_le (ih run member)
    | true =>
      rcases cons_true c bits with ⟨length, runs, here, longer⟩ | ⟨_, opened⟩
      · rw [longer] at member
        rcases List.mem_cons.mp member with rfl | later
        · exact le_rfl
        · exact Nat.le_of_succ_le (ih run (here ▸ List.mem_cons_of_mem _ later))
      · rw [opened] at member
        rcases List.mem_cons.mp member with rfl | later
        · exact le_rfl
        · exact Nat.le_of_succ_le (ih run later)

/-- Each run ends before the next one, with a zero between them. -/
theorem pairwise (bits : List Bool) :
    ∀ c : Nat, (bitRuns c bits).Pairwise fun run later => run.1 + run.2 < later.1 := by
  induction bits with
  | nil => exact fun _ => .nil
  | cons bit bits ih =>
    intro c
    have sorted := ih (c + 1)
    cases bit with
    | false => exact sorted
    | true =>
      rcases cons_true c bits with ⟨length, runs, here, longer⟩ | ⟨apart, opened⟩
      · rw [here, List.pairwise_cons] at sorted
        rw [longer, List.pairwise_cons]
        refine ⟨fun later member => ?_, sorted.2⟩
        have ends := sorted.1 later member
        omega
      · rw [opened, List.pairwise_cons]
        refine ⟨fun later member => ?_, sorted⟩
        have above := @start_le bits (c + 1)
        cases rest : bitRuns (c + 1) bits with
        | nil =>
          rw [rest] at member
          cases member
        | cons run runs =>
          have first := above run (rest ▸ List.mem_cons_self)
          rw [rest] at apart sorted member
          have other := apart run rfl
          rcases List.mem_cons.mp member with rfl | later'
          · omega
          · have ends := (List.pairwise_cons.mp sorted).1 later later'
            omega

theorem later_of_opened (opened : bitRuns c (true :: bits) = (c, 1) :: bitRuns (c + 1) bits) :
    ∀ run ∈ bitRuns (c + 1) bits, c + 1 < run.1 := by
  have sorted := pairwise (true :: bits) c
  rw [opened, List.pairwise_cons] at sorted
  exact sorted.1

/-- A run of ones in a range that cannot be made longer. -/
structure Maximal (f : Nat → Bool) (low high : Nat) (run : Nat × Nat) : Prop where
  pos : 0 < run.2
  above : low ≤ run.1
  below : run.1 + run.2 ≤ high
  ones : ∀ c, run.1 ≤ c → c < run.1 + run.2 → f c = true
  before : ∀ c, low ≤ c → c + 1 = run.1 → f c = false
  after : run.1 + run.2 < high → f (run.1 + run.2) = false

variable {f : Nat → Bool} {low high : Nat} {run : Nat × Nat}

theorem Maximal.widen (maximal : Maximal f (low + 1) high run) (edge : run.1 = low + 1 → f low = false) :
    Maximal f low high run where
  pos := maximal.pos
  above := Nat.le_of_succ_le maximal.above
  below := maximal.below
  ones := maximal.ones
  before c above last := by
    have start := maximal.above
    by_cases here : c = low
    · rw [here]
      exact edge (by omega)
    · exact maximal.before c (by omega) last
  after := maximal.after

theorem Maximal.narrow (maximal : Maximal f low high run) (above : low + 1 ≤ run.1) : Maximal f (low + 1) high run :=
  ⟨maximal.pos, above, maximal.below, maximal.ones, fun c low last => maximal.before c (Nat.le_of_succ_le low) last,
    maximal.after⟩

/-- One more one in front of a run. -/
theorem Maximal.longer {length : Nat} (one : f low = true) : Maximal f (low + 1) high (low + 1, length) ↔
    0 < length ∧ Maximal f low high (low, length + 1) := by
  have shift : low + 1 + length = low + (length + 1) := by omega
  constructor
  · intro maximal
    refine ⟨maximal.pos, Nat.succ_pos _, le_rfl, shift ▸ maximal.below, fun c start stop => ?_,
      fun c start stop => ?_, ?_⟩
    · by_cases here : c = low
      · rw [here, one]
      · exact maximal.ones c (by dsimp only at start ⊢; omega) (by dsimp only at stop ⊢; omega)
    · dsimp only at stop
      omega
    · have after := maximal.after
      dsimp only at after ⊢
      rwa [shift] at after
  · rintro ⟨some_, maximal⟩
    refine ⟨some_, le_rfl, shift ▸ maximal.below, fun c start stop => ?_, fun c start stop => ?_, ?_⟩
    · exact maximal.ones c (by dsimp only at start ⊢; omega) (by dsimp only at stop ⊢; omega)
    · dsimp only at stop
      omega
    · have after := maximal.after
      dsimp only at after ⊢
      rwa [shift]

/-- Two runs that start at the same place are one. -/
theorem Maximal.unique {run' : Nat × Nat} (maximal : Maximal f low high run) (maximal' : Maximal f low high run')
    (same : run.1 = run'.1) :
    run = run' := by
  have ends : ∀ {a b : Nat × Nat}, Maximal f low high a → Maximal f low high b → a.1 = b.1 → ¬ a.2 < b.2 := by
    intro a b first second starts shorter
    have below := second.below
    have zero := first.after (by omega)
    rw [second.ones _ (by omega) (by omega)] at zero
    cases zero
  have one := ends maximal maximal' same
  have two := ends maximal' maximal same.symm
  exact Prod.ext same (by omega)

/-- The runs of a range are its maximal runs of ones. -/
theorem mem_iff (f : Nat → Bool) (n : Nat) : ∀ {low : Nat} {run : Nat × Nat},
    run ∈ bitRuns low ((List.range' low n).map f) ↔ Maximal f low (low + n) run := by
  induction n with
  | zero =>
    intro low run
    refine ⟨fun member => absurd member List.not_mem_nil, fun maximal => ?_⟩
    have pos := maximal.pos
    have above := maximal.above
    have below := maximal.below
    omega
  | succ n ih =>
    intro low run
    have high : low + (n + 1) = low + 1 + n := by omega
    have rest := @ih (low + 1)
    rw [List.range'_succ, List.map_cons, high]
    cases bit : f low with
    | false =>
      rw [bitRuns, rest]
      refine ⟨fun maximal => maximal.widen fun _ => bit, fun maximal => maximal.narrow ?_⟩
      have above := maximal.above
      have pos := maximal.pos
      by_contra here
      have one := maximal.ones low (by omega) (by omega)
      rw [bit] at one
      cases one
    | true =>
      have sorted := pairwise ((List.range' (low + 1) n).map f) (low + 1)
      rcases cons_true low ((List.range' (low + 1) n).map f) with ⟨length, runs, here, longer⟩ | ⟨apart, opened⟩
      · rw [here, List.pairwise_cons] at sorted
        have first := (Maximal.longer bit).mp (rest.mp (here ▸ List.mem_cons_self))
        rw [longer, List.mem_cons]
        constructor
        · rintro (rfl | later)
          · exact first.2
          · have ends := sorted.1 run later
            exact (rest.mp (here ▸ List.mem_cons_of_mem _ later)).widen fun touches => by omega
        · intro maximal
          by_cases start : run.1 = low
          · exact Or.inl (maximal.unique first.2 start)
          · have above := maximal.above
            have member := rest.mpr (maximal.narrow (by omega))
            rw [here] at member
            rcases List.mem_cons.mp member with rfl | later
            · have zero := maximal.before low le_rfl rfl
              rw [bit] at zero
              cases zero
            · exact Or.inr later
      · -- the bit stands alone
        have alone : Maximal f low (low + 1 + n) (low, 1) := by
          refine ⟨Nat.one_pos, le_rfl, Nat.le_add_right _ _, fun c start stop => ?_, fun c start stop =>
            by dsimp only at stop; omega, fun more => ?_⟩
          · dsimp only at start stop
            rwa [show c = low by omega]
          · by_contra one
            rw [Bool.not_eq_false] at one
            obtain ⟨m, rfl⟩ : ∃ m, n = m + 1 := ⟨n - 1, by dsimp only at more; omega⟩
            rw [List.range'_succ, List.map_cons, show f (low + 1) = true from one] at apart
            rcases cons_true (low + 1) ((List.range' (low + 1 + 1) m).map f) with ⟨_, _, _, longer⟩ | ⟨_, opened⟩
            · rw [longer] at apart
              exact apart _ rfl rfl
            · rw [opened] at apart
              exact apart _ rfl rfl
        have later := later_of_opened opened
        rw [opened, List.mem_cons]
        constructor
        · rintro (rfl | member)
          · exact alone
          · have ends := later run member
            exact (rest.mp member).widen fun touches => by omega
        · intro maximal
          by_cases start : run.1 = low
          · exact Or.inl (maximal.unique alone start)
          · have above := maximal.above
            exact Or.inr (rest.mpr (maximal.narrow (by omega)))

/-- Ones in a row are part of one run. -/
theorem covered (f : Nat → Bool) (n : Nat) : ∀ {low first k : Nat}, low ≤ first → first + (k + 1) ≤ low + n →
    (∀ c, first ≤ c → c < first + (k + 1) → f c = true) →
    ∃ run ∈ bitRuns low ((List.range' low n).map f), run.1 ≤ first ∧ first + (k + 1) ≤ run.1 + run.2 := by
  induction n with
  | zero =>
    intro low first k above below
    omega
  | succ n ih =>
    intro low first k above below ones
    rw [List.range'_succ, List.map_cons]
    by_cases start : first = low
    · subst start
      rw [ones first le_rfl (by omega)]
      have joins := cons_true first ((List.range' (first + 1) n).map f)
      cases k with
      | zero =>
        rcases joins with ⟨length, runs, _, longer⟩ | ⟨_, opened⟩
        · exact ⟨(first, length + 1), longer ▸ List.mem_cons_self, le_rfl, by dsimp only; omega⟩
        · exact ⟨(first, 1), opened ▸ List.mem_cons_self, le_rfl, le_rfl⟩
      | succ k =>
        obtain ⟨run, member, begins, ends⟩ :=
          @ih (first + 1) (first + 1) k le_rfl (by omega) fun c low high => ones c (by omega) (by omega)
        rcases joins with ⟨length, runs, here, longer⟩ | ⟨_, opened⟩
        · have sorted := pairwise ((List.range' (first + 1) n).map f) (first + 1)
          rw [here] at member sorted
          rcases List.mem_cons.mp member with rfl | later
          · exact ⟨(first, length + 1), longer ▸ List.mem_cons_self, le_rfl, by dsimp only at ends ⊢; omega⟩
          · have beyond := (List.pairwise_cons.mp sorted).1 run later
            omega
        · have beyond := later_of_opened opened run member
          omega
    · obtain ⟨run, member, begins, ends⟩ := ih (show low + 1 ≤ first by omega) (by omega) ones
      cases f low with
      | false => exact ⟨run, member, begins, ends⟩
      | true =>
        rcases cons_true low ((List.range' (low + 1) n).map f) with ⟨length, runs, here, longer⟩ | ⟨_, opened⟩
        · rw [here] at member
          rw [longer]
          rcases List.mem_cons.mp member with rfl | later
          · exact ⟨(low, length + 1), List.mem_cons_self, by omega, by dsimp only at ends ⊢; omega⟩
          · exact ⟨run, List.mem_cons_of_mem _ later, begins, ends⟩
        · exact ⟨run, opened ▸ List.mem_cons_of_mem _ member, begins, ends⟩

end BitRuns
