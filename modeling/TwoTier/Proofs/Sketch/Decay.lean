import Mathlib.Tactic.Ring
import TwoTier.Proofs.Sketch.Estimate

/-!
# Popularity decays in bounded time

How often a run of increments halves the counters of a sketch depends on the number of increments
alone (`Sketch.le_halvings_iff`). The first halving comes when the additions reach the sample size.
It leaves half of them, rounded down, so that each halving after it comes half a sample size later,
rounded up.

A counter that no key of the run owns is halved each time and changed by nothing else
(`Sketch.exists_row_halved`). No counter exceeds fifteen, so four halvings empty it. Where a key is
not asked for, and the keys that are leave one of its counters alone, its estimate is zero after one
sample size of increments and three halves more, each rounded up (`Sketch.estimate_fades`).
-/

set_option autoImplicit false
set_option relaxedAutoImplicit false

namespace TwoTier.Sketch

/-! ### When the counters are halved -/

/-- How often the counters are halved while keys are asked for, one after the other. -/
def halvings (s : Sketch) : List String → Nat
  | [] => 0
  | key :: keys => (if s.Due then 1 else 0) + (s.increment key).halvings keys

/-- The number of increments until the counters have been halved so many times. -/
def wait (s : Sketch) : Nat → Nat
  | 0 => 0
  | times + 1 => (s.sampleSize - s.additions) + times * ((s.sampleSize + 1) / 2)

theorem wait_zero (s : Sketch) : s.wait 0 = 0 := rfl

theorem wait_succ (s : Sketch) (times : Nat) :
    s.wait (times + 1) = (s.sampleSize - s.additions) + times * ((s.sampleSize + 1) / 2) := rfl

theorem wait_increment_of_due {s : Sketch} (hlt : s.additions < s.sampleSize) (hdue : s.Due)
    (key : String) (times : Nat) : (s.increment key).wait times + 1 = s.wait (times + 1) := by
  have hfull : s.sampleSize = s.additions + 1 := Nat.le_antisymm hdue hlt
  have hlast : s.sampleSize - s.additions = 1 := by omega
  rw [wait_succ, hlast]
  cases times with
  | zero => rw [wait_zero, Nat.zero_mul]
  | succ times =>
    have hhalf : s.sampleSize - s.sampleSize / 2 = (s.sampleSize + 1) / 2 := by omega
    rw [wait_succ, additions_increment, if_pos hdue, sampleSize_increment, ← hfull, hhalf]
    ring

theorem wait_increment_of_not_due {s : Sketch} (hdue : ¬ s.Due) (key : String) (times : Nat) :
    (s.increment key).wait (times + 1) + 1 = s.wait (times + 1) := by
  have hless : s.additions + 1 < s.sampleSize := Nat.lt_of_not_le hdue
  rw [wait_succ, wait_succ, additions_increment, if_neg hdue, sampleSize_increment]
  omega

/-- A run of increments halves the counters so many times exactly when it is no shorter than the
wait for them. -/
theorem le_halvings_iff {s : Sketch} (hlt : s.additions < s.sampleSize) (keys : List String)
    (times : Nat) : times ≤ s.halvings keys ↔ s.wait times ≤ keys.length := by
  induction keys generalizing s times with
  | nil =>
    cases times with
    | zero => exact iff_of_true (Nat.le_refl 0) (Nat.le_refl 0)
    | succ times =>
      have hpositive : 0 < s.wait (times + 1) := by
        rw [wait_succ]
        omega
      exact iff_of_false (Nat.not_succ_le_zero times) (Nat.not_le_of_lt hpositive)
  | cons key keys ih =>
    cases times with
    | zero => exact iff_of_true (Nat.zero_le _) (Nat.zero_le _)
    | succ times =>
      have hrest := fun times ↦ ih (additions_lt_increment hlt key) times
      rw [halvings, List.length_cons]
      by_cases hdue : s.Due
      · rw [if_pos hdue, ← wait_increment_of_due hlt hdue key, Nat.add_comm 1,
          Nat.succ_le_succ_iff, Nat.succ_le_succ_iff]
        exact hrest times
      · rw [if_neg hdue, ← wait_increment_of_not_due hdue key, Nat.zero_add,
          Nat.succ_le_succ_iff]
        exact hrest (times + 1)

/-! ### What becomes of a counter that is left alone -/

theorem count_stepRow_of_ne {s : Sketch} {r : Row} {key : String} {i : Nat}
    (h : s.index r key ≠ i) :
    (s.stepRow key r).count i = r.count i / 2 ^ (if s.Due then 1 else 0) := by
  have hbump : (r.bump ceiling (s.index r key)).count i = r.count i := by
    rw [Row.count_bump, if_neg fun hi ↦ h hi.1.symm]
  unfold stepRow
  by_cases hdue : s.Due
  · simp [hdue, hbump]
  · simp [hdue, hbump]

/-- A counter that no key of a run owns is halved as often as the counters are, and not changed
otherwise. -/
theorem exists_row_halved {s : Sketch} {r : Row} (hr : r ∈ s.rows) {keys : List String} {i : Nat}
    (hapart : ∀ j ∈ keys, s.index r j ≠ i) :
    ∃ r' ∈ (keys.foldl increment s).rows, (keys.foldl increment s).index r' = s.index r ∧
      r'.count i = r.count i / 2 ^ s.halvings keys := by
  induction keys generalizing s r with
  | nil => exact ⟨r, hr, rfl, (Nat.div_one _).symm⟩
  | cons key keys ih =>
    have hindex := index_increment s key (seed_stepRow s key r)
    have hmem : s.stepRow key r ∈ (s.increment key).rows := by
      rw [rows_increment]
      exact List.mem_map_of_mem hr
    obtain ⟨r', hr', hindex', hcount⟩ := ih hmem fun j hj ↦ by
      rw [hindex]
      exact hapart j (List.mem_cons_of_mem key hj)
    refine ⟨r', hr', hindex'.trans hindex, ?_⟩
    rw [hcount, count_stepRow_of_ne (hapart key List.mem_cons_self), Nat.div_div_eq_div_mul,
      ← Nat.pow_add]
    rfl

/-- After every history of increments and clears, let keys be asked for that all leave the counter
of a key in one row alone, and so are others than it. One sample size of them and three halves more,
each rounded up, bring the estimate of the key to zero. -/
theorem estimate_fades (hash : String → UInt64) (counters : Nat) (past : List Act) :
    let s := after hash counters past
    s.sampleSize = max counters 16 ∧ ∀ (k : String) (keys : List String),
      (∃ r ∈ s.rows, ∀ j ∈ keys, s.index r j ≠ s.index r k) →
      s.sampleSize + 3 * ((s.sampleSize + 1) / 2) ≤ keys.length →
      (keys.foldl increment s).estimate k = 0 := by
  intro s
  have h : Sound hash counters past s := sound_after hash counters past
  refine ⟨h.sampleSize_eq, ?_⟩
  rintro k keys ⟨r, hr, hapart⟩ hlong
  have hfour : 4 ≤ s.halvings keys := by
    rw [le_halvings_iff h.additions_lt]
    calc
      s.wait 4 = (s.sampleSize - s.additions) + 3 * ((s.sampleSize + 1) / 2) := rfl
      _ ≤ s.sampleSize + 3 * ((s.sampleSize + 1) / 2) :=
        Nat.add_le_add_right (Nat.sub_le _ _) _
      _ ≤ keys.length := hlong
  obtain ⟨r', hr', hindex, hcount⟩ := exists_row_halved hr hapart
  have hsmall : r.count (s.index r k) < 2 ^ s.halvings keys := by
    calc
      r.count (s.index r k) ≤ 15 := (h.follows r hr).count_le _
      _ < 2 ^ 4 := by decide
      _ ≤ 2 ^ s.halvings keys := Nat.pow_le_pow_right (by decide) hfour
  have hle := estimate_le hr' k
  rw [hindex, hcount, Nat.div_eq_of_lt hsmall] at hle
  exact Nat.le_zero.mp hle

/-- A key asked for fifteen times in a row is forgotten after forty increments of another key. -/
theorem estimate_fades_of_other_key :
    let hash : String → UInt64 := fun k ↦ if k = "b" then 1 else 0
    let s := after hash 16 (List.replicate 15 (.increment "a"))
    let keys := List.replicate 40 "b"
    (∃ r ∈ s.rows, ∀ j ∈ keys, s.index r j ≠ s.index r "a") ∧
      s.sampleSize + 3 * ((s.sampleSize + 1) / 2) ≤ keys.length ∧ s.estimate "a" = 15 ∧
      (keys.foldl increment s).estimate "a" = 0 := by
  intro hash s keys
  have hapart : ∃ r ∈ s.rows, ∀ j ∈ keys, s.index r j ≠ s.index r "a" := by decide +kernel
  have hlong : s.sampleSize + 3 * ((s.sampleSize + 1) / 2) ≤ keys.length := by decide +kernel
  exact ⟨hapart, hlong, by decide +kernel,
    (estimate_fades hash 16 (List.replicate 15 (.increment "a"))).2 "a" keys hapart hlong⟩

end TwoTier.Sketch
