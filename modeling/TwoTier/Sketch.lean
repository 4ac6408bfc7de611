import TwoTier.Dict

/-!
An approximate count of how often each key was asked for.

The sketch has four rows of small counters. A key owns one counter of each row, chosen by its hash
and the seed of the row; several keys may own the same one. An increment adds one to the key's
counters up to `Sketch.ceiling`, and the estimate of a key is its least counter. After
`sampleSize` increments every counter is halved, so that popularity decays.

The hash is a part of the sketch, so that what holds of a sketch holds for every hash. Counters that
are zero are not stored.
-/

set_option autoImplicit false
set_option relaxedAutoImplicit false

namespace TwoTier

/-- One row of counters. -/
structure Row where
  /-- What tells this row's choice of counters from that of the others. -/
  seed : UInt64
  /-- The counters that have been set, by their index. -/
  counts : Dict Nat Nat

/-- A sketch of how often keys were asked for. -/
structure Sketch where
  /-- The hash of a key. -/
  hash : String → UInt64
  /-- The number of counters of each row, a power of two. -/
  width : Nat
  /-- The rows. -/
  rows : List Row
  /-- The increments since the counters were last halved, and half of those before. -/
  additions : Nat
  /-- The increments after which the counters are halved. -/
  sampleSize : Nat

namespace Row

/-- The row of a seed with all counters at zero. -/
def fresh (seed : UInt64) : Row := ⟨seed, ∅⟩

/-- The counter at an index. -/
def count (r : Row) (i : Nat) : Nat := r.counts.getD i 0

/-- The index of the counter that a hash owns in a row of a width. The width is a power of two, so
that the remainder keeps the low bits of the mixed hash. -/
def index (r : Row) (width : Nat) (h : UInt64) : Nat :=
  let mixed := (h ^^^ r.seed) * 0xFF51AFD7ED558CCD
  (mixed ^^^ (mixed >>> 32)).toNat % width

/-- The row with the counter at an index one higher, up to `ceiling`. -/
def bump (r : Row) (ceiling i : Nat) : Row :=
  if r.count i < ceiling then { r with counts := r.counts.insert i (r.count i + 1) } else r

/-- The row with every counter halved. -/
def halve (r : Row) : Row := { r with counts := r.counts.map fun _ n ↦ n / 2 }

/-- The row with every counter at zero. -/
def clear (r : Row) : Row := { r with counts := ∅ }

@[simp] theorem seed_bump (r : Row) (ceiling i : Nat) : (r.bump ceiling i).seed = r.seed := by
  unfold bump
  split <;> rfl

@[simp] theorem count_fresh (seed : UInt64) (i : Nat) : (fresh seed).count i = 0 := rfl

@[simp] theorem count_clear (r : Row) (i : Nat) : r.clear.count i = 0 := rfl

theorem count_bump (r : Row) (ceiling i j : Nat) :
    (r.bump ceiling i).count j =
      if j = i ∧ r.count i < ceiling then r.count i + 1 else r.count j := by
  by_cases h : r.count i < ceiling
  · have hbump : r.bump ceiling i = { r with counts := r.counts.insert i (r.count i + 1) } :=
      if_pos h
    rw [hbump]
    simp [count, show r.counts.getD i 0 < ceiling from h]
  · simp [bump, h]

end Row

namespace Sketch

/-- The greatest value of a counter. -/
def ceiling : Nat := 15

/-- The seeds of the four rows. -/
def seeds : List UInt64 :=
  [0x9E3779B97F4A7C15, 0xC2B2AE3D27D4EB4F, 0x165667B19E3779F9, 0x85EBCA77C2B2AE63]

/-- The least number of counters of a row, and of increments between two halvings. -/
def least : Nat := 16

/-- A sketch for a hash with a requested number of counters for each row, which is rounded up to a
power of two. -/
def create (hash : String → UInt64) (counters : Nat) : Sketch where
  hash := hash
  width := (max counters least).nextPowerOfTwo
  rows := seeds.map Row.fresh
  additions := 0
  sampleSize := max counters least

/-- The index of the counter that a key owns in a row. -/
def index (s : Sketch) (r : Row) (key : String) : Nat := r.index s.width (s.hash key)

/-- The sketch with every counter halved. -/
def halve (s : Sketch) : Sketch :=
  { s with rows := s.rows.map Row.halve, additions := s.additions / 2 }

/-- The sketch after a key was asked for once more. -/
def increment (s : Sketch) (key : String) : Sketch :=
  let counted := { s with
    rows := s.rows.map fun r ↦ r.bump ceiling (s.index r key)
    additions := s.additions + 1 }
  if s.sampleSize ≤ counted.additions then counted.halve else counted

/-- How often a key was asked for: the least of its counters. -/
def estimate (s : Sketch) (key : String) : Nat :=
  ((s.rows.map fun r ↦ r.count (s.index r key)).min?).getD 0

/-- The sketch with all counters at zero. -/
def clear (s : Sketch) : Sketch := { s with rows := s.rows.map Row.clear, additions := 0 }

end Sketch

end TwoTier
