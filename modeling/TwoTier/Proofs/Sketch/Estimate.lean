import Mathlib.Algebra.Ring.Nat
import Mathlib.Logic.Function.Basic
import Mathlib.Tactic.Common
import TwoTier.Sketch

/-!
# A sketch never underestimates

Beside a sketch an exact count of each key is kept (`Sketch.exactCount`). It goes up by one whenever
its key is asked for, as far as a counter goes; it is halved whenever the sketch halves its
counters; and it is zero after a clear. No counter that a key owns falls below the exact count, for
an increment of another key can only add to it. A counter that no other key has shared since the
last clear equals the exact count. Both are kept row by row (`Row.Follows`), and the estimate of a
key is the least of its counters.

The main statement is `Sketch.estimate_covers`. It holds for every hash, every requested number of
counters and every history of increments and clears.
-/

set_option autoImplicit false
set_option relaxedAutoImplicit false

namespace TwoTier

/-- Exact counts of keys, with the ceiling of a counter. -/
abbrev Tally := String → Nat

namespace Tally

/-- The counts after a key was asked for once more. -/
def increment (t : Tally) (key : String) : Tally :=
  Function.update t key (min Sketch.ceiling (t key + 1))

/-- Half of the counts, rounded down. -/
def halve (t : Tally) : Tally := fun k ↦ t k / 2

/-- The counts before any key was asked for. -/
def zero : Tally := fun _ ↦ 0

end Tally

namespace Row

@[simp] theorem seed_halve (r : Row) : r.halve.seed = r.seed := rfl

@[simp] theorem count_halve (r : Row) (i : Nat) : r.halve.count i = r.count i / 2 := by
  show (r.counts.map fun _ n ↦ n / 2).getD i 0 = r.counts.getD i 0 / 2
  rw [Std.ExtTreeMap.getD_map, Std.ExtTreeMap.getD_eq_getD_getElem?]
  cases r.counts[i]? <;> rfl

/-- The hash as a row mixes it. -/
def mixed (r : Row) (h : UInt64) : UInt64 :=
  let product := (h ^^^ r.seed) * 0xFF51AFD7ED558CCD
  product ^^^ (product >>> 32)

/-- Where the width is a power of two, the index is the low bits of the mixed hash. -/
theorem index_eq_land (r : Row) (e : Nat) (h : UInt64) :
    r.index (2 ^ e) h = (r.mixed h).toNat &&& (2 ^ e - 1) := by
  rw [Nat.and_two_pow_sub_one_eq_mod]
  rfl

/-- A row follows the exact counts of keys, each of which owns the counter at an index. Some of the
keys have been asked for since the last clear. -/
structure Follows (index : String → Nat) (exact : Tally) (seen : List String) (r : Row) :
    Prop where
  /-- No counter exceeds the ceiling. -/
  count_le : ∀ i, r.count i ≤ Sketch.ceiling
  /-- The counter of a key is no less than its exact count. -/
  exact_le : ∀ k, exact k ≤ r.count (index k)
  /-- It is the exact count where no other key has shared it. -/
  count_eq : ∀ k, (∀ j ∈ seen, j ≠ k → index j ≠ index k) → r.count (index k) = exact k

section Step

variable {index : String → Nat} {exact : Tally} {seen : List String} {r : Row}

theorem follows_zero (hzero : ∀ i, r.count i = 0) : r.Follows index .zero [] where
  count_le i := by
    rw [hzero]
    exact Nat.zero_le _
  exact_le _ := Nat.zero_le _
  count_eq k _ := hzero (index k)

/-- An increment adds to the counter of its key what it adds to the exact count of it, and to no
other exact count. -/
theorem Follows.bump (h : r.Follows index exact seen) (key : String) :
    (r.bump Sketch.ceiling (index key)).Follows index (exact.increment key) (key :: seen) where
  count_le i := by
    rw [count_bump]
    split_ifs with hi
    · exact hi.2
    · exact h.count_le i
  exact_le k := by
    have hk := h.exact_le k
    rw [count_bump, Tally.increment]
    by_cases hsame : k = key
    · subst hsame
      rw [Function.update_self]
      split_ifs <;> omega
    · rw [Function.update_of_ne hsame]
      split_ifs with hi
      · rw [hi.1] at hk
        exact Nat.le_succ_of_le hk
      · exact hk
  count_eq k hapart := by
    have hrest : r.count (index k) = exact k :=
      h.count_eq k fun j hj ↦ hapart j (List.mem_cons_of_mem key hj)
    have hle := h.count_le (index k)
    rw [count_bump, Tally.increment]
    by_cases hsame : k = key
    · subst hsame
      rw [Function.update_self]
      split_ifs <;> omega
    · have hne : index key ≠ index k := hapart key List.mem_cons_self (Ne.symm hsame)
      rw [Function.update_of_ne hsame, if_neg fun hi ↦ hne hi.1.symm]
      exact hrest

theorem Follows.halve (h : r.Follows index exact seen) :
    r.halve.Follows index exact.halve seen where
  count_le i := by
    rw [count_halve]
    exact Nat.le_trans (Nat.div_le_self _ 2) (h.count_le i)
  exact_le k := by
    rw [count_halve]
    exact Nat.div_le_div_right (h.exact_le k)
  count_eq k hapart := by
    rw [count_halve, h.count_eq k hapart]
    rfl

end Step

end Row

namespace Sketch

/-! ### What one increment does -/

/-- Whether the next increment halves the counters. -/
def Due (s : Sketch) : Prop := s.sampleSize ≤ s.additions + 1

instance (s : Sketch) : Decidable s.Due := inferInstanceAs (Decidable (_ ≤ _))

/-- A row of a sketch after a key was asked for. -/
def stepRow (s : Sketch) (key : String) (r : Row) : Row :=
  let bumped := r.bump ceiling (s.index r key)
  if s.Due then bumped.halve else bumped

/-- An increment changes every row and the number of additions, and nothing else. -/
theorem increment_eq (s : Sketch) (key : String) :
    s.increment key = { s with
      rows := s.rows.map (s.stepRow key)
      additions := if s.Due then (s.additions + 1) / 2 else s.additions + 1 } := by
  unfold increment stepRow halve
  by_cases hdue : s.Due
  · simp [hdue, show s.sampleSize ≤ s.additions + 1 from hdue]
  · simp [hdue, show ¬ s.sampleSize ≤ s.additions + 1 from hdue]

@[simp] theorem seed_stepRow (s : Sketch) (key : String) (r : Row) :
    (s.stepRow key r).seed = r.seed := by
  unfold stepRow
  split_ifs <;> simp

theorem rows_increment (s : Sketch) (key : String) :
    (s.increment key).rows = s.rows.map (s.stepRow key) := by
  rw [increment_eq]

theorem additions_increment (s : Sketch) (key : String) :
    (s.increment key).additions = if s.Due then (s.additions + 1) / 2 else s.additions + 1 := by
  rw [increment_eq]

@[simp] theorem sampleSize_increment (s : Sketch) (key : String) :
    (s.increment key).sampleSize = s.sampleSize := by
  rw [increment_eq]

@[simp] theorem width_increment (s : Sketch) (key : String) :
    (s.increment key).width = s.width := by
  rw [increment_eq]

/-- The keys keep their counters: the index of a counter depends on the seed of its row only. -/
theorem index_increment (s : Sketch) (key : String) {r r' : Row} (h : r'.seed = r.seed) :
    (s.increment key).index r' = s.index r := by
  rw [increment_eq]
  funext k
  unfold index Row.index
  rw [h]

/-- The additions stay below the sample size, for half of it is left where they reach it. -/
theorem additions_lt_increment {s : Sketch} (h : s.additions < s.sampleSize) (key : String) :
    (s.increment key).additions < (s.increment key).sampleSize := by
  rw [additions_increment, sampleSize_increment]
  split_ifs with hdue
  · omega
  · exact Nat.lt_of_not_le hdue

/-! ### The estimate of a key is the least of its counters -/

theorem le_estimate_iff {s : Sketch} (hrows : s.rows ≠ []) (m : Nat) (k : String) :
    m ≤ s.estimate k ↔ ∀ r ∈ s.rows, m ≤ r.count (s.index r k) := by
  unfold estimate
  cases hmin : (s.rows.map fun r ↦ r.count (s.index r k)).min? with
  | none => exact absurd (List.map_eq_nil_iff.mp (List.min?_eq_none_iff.mp hmin)) hrows
  | some least => rw [Option.getD_some, List.le_min?_iff hmin, List.forall_mem_map]

theorem estimate_le {s : Sketch} {r : Row} (hr : r ∈ s.rows) (k : String) :
    s.estimate k ≤ r.count (s.index r k) :=
  (le_estimate_iff (List.ne_nil_of_mem hr) _ k).mp (Nat.le_refl _) r hr

/-! ### What a history leaves -/

/-- A change of a sketch. -/
inductive Act where
  /-- A key was asked for. -/
  | increment (key : String)
  /-- All counters were set to zero. -/
  | clear

section History

variable (hash : String → UInt64) (counters : Nat)

/-- The sketch that was created for a hash with a number of counters, after a history of changes,
the newest first. -/
def after : List Act → Sketch
  | [] => create hash counters
  | .increment key :: past => (after past).increment key
  | .clear :: past => (after past).clear

/-- The exact counts after a history. They are halved whenever the sketch halves its counters. -/
def exactCount : List Act → Tally
  | [] => .zero
  | .increment key :: past =>
    let counted := (exactCount past).increment key
    if (after hash counters past).Due then counted.halve else counted
  | .clear :: _ => .zero

end History

/-- The keys that were asked for in a history since the last clear. -/
def seen : List Act → List String
  | [] => []
  | .increment key :: past => key :: seen past
  | .clear :: _ => []

/-- What holds of a sketch after a history. -/
structure Sound (hash : String → UInt64) (counters : Nat) (past : List Act) (s : Sketch) :
    Prop where
  /-- The width of the rows is a power of two. -/
  width : s.width.isPowerOfTwo
  /-- The sample size is the number of counters that was asked for, or the least. -/
  sampleSize_eq : s.sampleSize = max counters least
  /-- There is a row. -/
  rows_ne_nil : s.rows ≠ []
  /-- The counters have been halved in time. -/
  additions_lt : s.additions < s.sampleSize
  /-- Every row follows the exact counts. -/
  follows : ∀ r ∈ s.rows, r.Follows (s.index r) (exactCount hash counters past) (seen past)

section Sound

variable {hash : String → UInt64} {counters : Nat} {past : List Act}

theorem sound_create : Sound hash counters [] (create hash counters) where
  width := Nat.isPowerOfTwo_nextPowerOfTwo _
  sampleSize_eq := rfl
  rows_ne_nil := by simp [create, seeds]
  additions_lt := Nat.lt_of_lt_of_le (by decide : 0 < least) (Nat.le_max_right _ _)
  follows r hr := by
    obtain ⟨seed, -, rfl⟩ := List.mem_map.mp hr
    exact Row.follows_zero (Row.count_fresh seed)

theorem Sound.clear {s : Sketch} (h : Sound hash counters past s) :
    Sound hash counters (.clear :: past) s.clear where
  width := h.width
  sampleSize_eq := h.sampleSize_eq
  rows_ne_nil := by simpa [Sketch.clear] using h.rows_ne_nil
  additions_lt := Nat.lt_of_le_of_lt (Nat.zero_le _) h.additions_lt
  follows r hr := by
    obtain ⟨old, -, rfl⟩ := List.mem_map.mp hr
    exact Row.follows_zero (Row.count_clear old)

theorem Sound.increment (h : Sound hash counters past (after hash counters past)) (key : String) :
    Sound hash counters (.increment key :: past) ((after hash counters past).increment key) where
  width := by
    rw [width_increment]
    exact h.width
  sampleSize_eq := by
    rw [sampleSize_increment]
    exact h.sampleSize_eq
  rows_ne_nil := by
    rw [rows_increment]
    simpa using h.rows_ne_nil
  additions_lt := additions_lt_increment h.additions_lt key
  follows r' hr' := by
    rw [rows_increment] at hr'
    obtain ⟨r, hr, rfl⟩ := List.mem_map.mp hr'
    have hbumped := (h.follows r hr).bump key
    rw [index_increment _ key (seed_stepRow _ key r)]
    -- The row and the exact counts are halved under the same condition.
    unfold stepRow exactCount seen
    split_ifs with hdue
    · exact hbumped.halve
    · exact hbumped

variable (hash counters past)

theorem sound_after : Sound hash counters past (after hash counters past) := by
  induction past with
  | nil => exact sound_create
  | cons act past ih =>
    cases act with
    | increment key => exact ih.increment key
    | clear => exact ih.clear

end Sound

/-- After every history of increments and clears no counter exceeds fifteen, the counters have been
halved in time, and every index, the low bits of the mixed hash, lies below the width of the rows, a
power of two. The estimate of a key is no less than its exact count, and equals it where in some row
no other key that was asked for since the last clear shares the counter of the key. -/
theorem estimate_covers (hash : String → UInt64) (counters : Nat) (past : List Act) :
    let s := after hash counters past
    (∀ r ∈ s.rows, ∀ i, r.count i ≤ 15) ∧ s.additions < s.sampleSize ∧
      (∃ e, s.width = 2 ^ e) ∧
      (∀ r ∈ s.rows, ∀ k, s.index r k = (r.mixed (s.hash k)).toNat &&& (s.width - 1) ∧
        s.index r k < s.width) ∧
      (∀ k, exactCount hash counters past k ≤ s.estimate k) ∧
      ∀ k, (∃ r ∈ s.rows, ∀ j ∈ seen past, j ≠ k → s.index r j ≠ s.index r k) →
        s.estimate k = exactCount hash counters past k := by
  intro s
  have h : Sound hash counters past s := sound_after hash counters past
  have hcover : ∀ k, exactCount hash counters past k ≤ s.estimate k := by
    intro k
    rw [le_estimate_iff h.rows_ne_nil]
    exact fun r hr ↦ (h.follows r hr).exact_le k
  refine ⟨fun r hr ↦ (h.follows r hr).count_le, h.additions_lt, h.width, ?_, hcover, ?_⟩
  · intro r hr k
    obtain ⟨e, he⟩ := h.width
    unfold index
    rw [he]
    constructor
    · exact r.index_eq_land e _
    · exact Nat.mod_lt _ (Nat.two_pow_pos e)
  · rintro k ⟨r, hr, hapart⟩
    apply Nat.le_antisymm
    · calc
        s.estimate k ≤ r.count (s.index r k) := estimate_le hr k
        _ = exactCount hash counters past k := (h.follows r hr).count_eq k hapart
    · exact hcover k

/-- A key is asked for fifteen times and another one once, and the counters are halved: the count of
fifteen has become seven, and a key of the same hash that was never asked for is estimated alike. -/
theorem estimate_covers_of_halved :
    let hash : String → UInt64 := fun k ↦ if k = "b" then 1 else 0
    let past := Act.increment "b" :: List.replicate 15 (.increment "a")
    let s := after hash 16 past
    (∃ r ∈ s.rows, ∀ j ∈ seen past, j ≠ "a" → s.index r j ≠ s.index r "a") ∧
      s.estimate "a" = exactCount hash 16 past "a" ∧ exactCount hash 16 past "a" = 7 ∧
      exactCount hash 16 past "c" = 0 ∧ s.estimate "c" = 7 := by
  intro hash past s
  have hapart : ∃ r ∈ s.rows, ∀ j ∈ seen past, j ≠ "a" → s.index r j ≠ s.index r "a" := by
    decide +kernel
  have hmain := estimate_covers hash 16 past
  exact ⟨hapart, hmain.2.2.2.2.2 "a" hapart, by decide +kernel, by decide +kernel,
    by decide +kernel⟩

end Sketch

end TwoTier
