import Mathlib.Algebra.Ring.Int.Defs
import Mathlib.Algebra.Ring.Nat
import Mathlib.Tactic.Common
import TwoTier.Proofs.Store.Fate
import TwoTier.Proofs.Store.Refusal

/-!
# Trimming a list

To trim a list keeps the elements whose positions lie between the two bounds, where a negative bound
counts from the end, and removes the key where there are none. `Store.between` says this over the
unbounded integers, without the clamping of `Store.resolveRange`.

Bounds are 64-bit integers, and the positions are worked out by a machine that could go wrong on
the way: `Machine.trim?` follows it step by step and has no answer as soon as a sum overflows, a
negative number is taken for a position, or more of a list is asked for than there is. It always has
an answer, and the same one (`Machine.trim?_eq`).
-/

set_option autoImplicit false
set_option relaxedAutoImplicit false

namespace TwoTier

namespace Store

/-- The position that a bound names in a list of a length, over the unbounded integers: a negative
bound counts from the end. It need not lie in the list. -/
def position (length : Nat) (bound : Int) : Int := if bound < 0 then length + bound else bound

/-- The elements of a list whose positions lie between two inclusive bounds, in their order. -/
def between (items : List String) (start stop : Int) : List String :=
  (items.zipIdx.filter fun x ↦
    position items.length start ≤ x.2 ∧ x.2 ≤ position items.length stop).map Prod.fst

/-- To choose by position is to take what ends with the last position and to drop what comes before
the first. -/
theorem filter_zipIdx (items : List String) (k : Nat) (first last : Int) :
    ((items.zipIdx k).filter fun x ↦ first ≤ x.2 ∧ x.2 ≤ last).map Prod.fst =
      (items.take (last + 1 - k).toNat).drop (first - k).toNat := by
  induction items generalizing k with
  | nil => simp only [List.zipIdx_nil, List.filter_nil, List.map_nil, List.take_nil, List.drop_nil]
  | cons item items ih =>
    have hrest := ih (k + 1)
    rw [List.zipIdx_cons, List.filter_cons]
    by_cases hlast : (k : Int) ≤ last
    · have htake : (last + 1 - k).toNat = (last + 1 - ↑(k + 1)).toNat + 1 := by omega
      rw [htake, List.take_succ_cons]
      by_cases hfirst : first ≤ k
      · have hdrop : (first - k).toNat = 0 := by omega
        have hnext : (first - ↑(k + 1)).toNat = 0 := by omega
        rw [hnext, List.drop_zero] at hrest
        rw [if_pos (decide_eq_true ⟨hfirst, hlast⟩), List.map_cons, hrest, hdrop, List.drop_zero]
      · have hdrop : (first - k).toNat = (first - ↑(k + 1)).toNat + 1 := by omega
        rw [if_neg (by simp [hfirst]), hrest, hdrop, List.drop_succ_cons]
    · have htake : (last + 1 - k).toNat = 0 := by omega
      have hnext : (last + 1 - ↑(k + 1)).toNat = 0 := by omega
      rw [if_neg (by simp [hlast]), hrest, hnext, htake, List.take_zero, List.take_zero,
        List.drop_nil, List.drop_nil]

theorem between_eq (items : List String) (start stop : Int) : between items start stop =
    (items.take (position items.length stop + 1).toNat).drop
      (position items.length start).toNat := by
  have hfilter := filter_zipIdx items 0 (position items.length start) (position items.length stop)
  rw [Int.natCast_zero, Int.sub_zero, Int.sub_zero] at hfilter
  exact hfilter

/-- Where the bounds name no positions of a list, no element lies between them. -/
theorem between_of_none {items : List String} {start stop : Int}
    (h : resolveRange items.length start stop = none) : between items start stop = [] := by
  unfold resolveRange at h
  dsimp only at h
  rw [between_eq, List.drop_eq_nil_iff, List.length_take]
  unfold position
  split_ifs at h ⊢ <;> omega

/-- The positions that the bounds name are those of the elements between them. -/
theorem between_of_some {items : List String} {start stop : Int} {first last : Nat}
    (h : resolveRange items.length start stop = some (first, last)) :
    between items start stop = (items.take (last + 1)).drop first := by
  unfold resolveRange at h
  dsimp only at h
  rw [between_eq, List.take_eq_take_min, List.take_eq_take_min (i := last + 1)]
  unfold position
  split_ifs at h ⊢
  all_goals
    obtain ⟨rfl, rfl⟩ := Prod.mk.inj (Option.some.inj h)
    refine congrArg₂ List.drop ?_ (congrArg (List.take · items) ?_) <;> omega

/-- The positions that the bounds name lie in the list. -/
theorem resolveRange_le {length first last : Nat} {start stop : Int}
    (h : resolveRange length start stop = some (first, last)) : first ≤ last ∧ last < length := by
  unfold resolveRange at h
  dsimp only at h
  split_ifs at h
  all_goals
    obtain ⟨rfl, rfl⟩ := Prod.mk.inj (Option.some.inj h)
    omega

/-! ### What is left of a list -/

/-- What trimming leaves of a list that a key shows: the elements between the bounds, or no key
where there are none. -/
theorem ltrim_of_list {s : Store} (honline : s.offline = false) {now : Nat} {key : String}
    {items : List String} {e : Expiry} (hlive : s.live? now key = some ⟨.list items, e⟩)
    (start stop : Int) : ltrim now key start stop s = (.ok (),
      if between items start stop = [] then s.drop key
      else s.put key ⟨.list (between items start stop), e⟩) := by
  have hopen : ¬ s.offline = true := by
    rw [honline]
    exact Bool.false_ne_true
  obtain ⟨hkey, he⟩ := Option.filter_eq_some_iff.mp hlive
  have hsettle : s.settle now key = s := by
    unfold settle
    rw [hkey]
    exact if_pos he
  unfold ltrim whenOnline
  rw [if_neg hopen]
  dsimp only
  rw [hsettle, hkey]
  dsimp only
  cases hrange : resolveRange items.length start stop with
  | none => rw [if_pos (between_of_none hrange)]
  | some range =>
    obtain ⟨first, last⟩ := range
    rw [between_of_some hrange, if_neg (drop_take_ne_nil hrange)]

/-- To trim what a key does not show is to remove what has expired under it. -/
theorem ltrim_of_none {s : Store} (honline : s.offline = false) {now : Nat} {key : String}
    (hnone : s.live? now key = none) (start stop : Int) :
    ltrim now key start stop s = (.ok (), s.settle now key) := by
  have hopen : ¬ s.offline = true := by
    rw [honline]
    exact Bool.false_ne_true
  have hkey := (getElem?_settle_self s now key).trans hnone
  unfold ltrim whenOnline
  rw [if_neg hopen]
  dsimp only
  rw [hkey]

end Store

/-! ### The positions, step by step -/

namespace Machine

/-- The sum of two 64-bit integers; there is none where it overflows. -/
def sum? (x y : Int64) : Option Int64 :=
  if (x + y).toInt = x.toInt + y.toInt then some (x + y) else none

/-- The difference of two 64-bit integers; there is none where it overflows. -/
def difference? (x y : Int64) : Option Int64 :=
  if (x - y).toInt = x.toInt - y.toInt then some (x - y) else none

/-- A 64-bit integer as a position; a negative one is none. -/
def position? (x : Int64) : Option Nat := if 0 ≤ x then some x.toInt.toNat else none

/-- A list without what comes behind its first `n` elements, where it has that many. -/
def truncate? (n : Nat) (items : List String) : Option (List String) :=
  if n ≤ items.length then some (items.take n) else none

/-- A list without its first `n` elements, where it has that many. -/
def drain? (n : Nat) (items : List String) : Option (List String) :=
  if n ≤ items.length then some (items.drop n) else none

/-- The first position that is kept of `n`. -/
def first? (n start : Int64) : Option Int64 :=
  if start < 0 then (sum? n start).map (max · 0) else some start

/-- The last position that is kept of `n`. -/
def last? (n stop : Int64) : Option Int64 :=
  if stop < 0 then sum? n stop else (difference? n 1).map (min stop)

/-- The positions that two inclusive bounds name in a list of a length. -/
def resolveRange? (length : Nat) (start stop : Int64) : Option (Option (Nat × Nat)) := do
  let n := Int64.ofNat length
  let first ← first? n start
  let last ← last? n stop
  if last < first ∨ n ≤ first then some none
  else some (some (← position? first, ← position? last))

/-- What trimming leaves of a list; where it leaves nothing, the key is removed. -/
def trim? (items : List String) (start stop : Int64) : Option (Option (List String)) := do
  match ← resolveRange? items.length start stop with
  | some (first, last) => return some (← drain? first (← truncate? (last + 1) items))
  | none => return none

theorem sum?_eq {x y : Int64} (h : -2 ^ 63 ≤ x.toInt + y.toInt ∧ x.toInt + y.toInt < 2 ^ 63) :
    ∃ z, sum? x y = some z ∧ z.toInt = x.toInt + y.toInt := by
  have hsum : (x + y).toInt = x.toInt + y.toInt := by
    rw [Int64.toInt_add]
    exact Int.bmod_eq_of_le (by omega) (by omega)
  exact ⟨x + y, if_pos hsum, hsum⟩

theorem difference?_eq {x y : Int64}
    (h : -2 ^ 63 ≤ x.toInt - y.toInt ∧ x.toInt - y.toInt < 2 ^ 63) :
    ∃ z, difference? x y = some z ∧ z.toInt = x.toInt - y.toInt := by
  have hdifference : (x - y).toInt = x.toInt - y.toInt := by
    rw [Int64.toInt_sub]
    exact Int.bmod_eq_of_le (by omega) (by omega)
  exact ⟨x - y, if_pos hdifference, hdifference⟩

theorem toInt_max (x y : Int64) : (max x y).toInt = max x.toInt y.toInt := by
  change (if x ≤ y then y else x).toInt = _
  split_ifs with hle <;> rw [Int64.le_iff_toInt_le] at hle <;> omega

theorem toInt_min (x y : Int64) : (min x y).toInt = min x.toInt y.toInt := by
  change (if x ≤ y then x else y).toInt = _
  split_ifs with hle <;> rw [Int64.le_iff_toInt_le] at hle <;> omega

section Range

variable {length : Nat} (hlength : length < 2 ^ 63) (start stop : Int64)

include hlength

/-- No sum overflows on the way to the first position. -/
theorem exists_first : ∃ first, first? (.ofNat length) start = some first ∧
    first.toInt = if start.toInt < 0 then max (length + start.toInt) 0 else start.toInt := by
  have hn : (Int64.ofNat length).toInt = length := Int64.toInt_ofNat_of_lt hlength
  have hmin := start.le_toInt
  by_cases hneg : start < 0
  · have hneg' : start.toInt < 0 := Int64.lt_iff_toInt_lt.mp hneg
    obtain ⟨z, hz, hsum⟩ := sum?_eq (x := .ofNat length) (y := start) (by omega)
    refine ⟨max z 0, by rw [first?, if_pos hneg, hz, Option.map_some], ?_⟩
    rw [if_pos hneg', toInt_max, hsum, hn, Int64.toInt_zero]
  · have hneg' : ¬ start.toInt < 0 := fun h ↦ hneg (Int64.lt_iff_toInt_lt.mpr h)
    exact ⟨start, if_neg hneg, (if_neg hneg').symm⟩

/-- No sum and no difference overflows on the way to the last position. -/
theorem exists_last : ∃ last, last? (.ofNat length) stop = some last ∧
    last.toInt = if stop.toInt < 0 then length + stop.toInt else min stop.toInt (length - 1) := by
  have hn : (Int64.ofNat length).toInt = length := Int64.toInt_ofNat_of_lt hlength
  have hmin := stop.le_toInt
  by_cases hneg : stop < 0
  · have hneg' : stop.toInt < 0 := Int64.lt_iff_toInt_lt.mp hneg
    obtain ⟨z, hz, hsum⟩ := sum?_eq (x := .ofNat length) (y := stop) (by omega)
    exact ⟨z, (if_pos hneg).trans hz, by rw [if_pos hneg', hsum, hn]⟩
  · have hneg' : ¬ stop.toInt < 0 := fun h ↦ hneg (Int64.lt_iff_toInt_lt.mpr h)
    have hone : (1 : Int64).toInt = 1 := Int64.toInt_one
    obtain ⟨z, hz, hdifference⟩ := difference?_eq (x := .ofNat length) (y := 1) (by omega)
    refine ⟨min stop z, by rw [last?, if_neg hneg, hz, Option.map_some], ?_⟩
    rw [if_neg hneg', toInt_min, hdifference, hn, hone]

/-- The positions are worked out without an overflow, and a negative number is never taken for
one. -/
theorem resolveRange?_eq :
    resolveRange? length start stop = some (Store.resolveRange length start.toInt stop.toInt) := by
  obtain ⟨first, hfirst, hfirst'⟩ := exists_first hlength start
  obtain ⟨last, hlast, hlast'⟩ := exists_last hlength stop
  have hn : (Int64.ofNat length).toInt = length := Int64.toInt_ofNat_of_lt hlength
  have hempty : (last < first ∨ Int64.ofNat length ≤ first) ↔
      (last.toInt < first.toInt ∨ (length : Int) ≤ first.toInt) := by
    rw [Int64.lt_iff_toInt_lt, Int64.le_iff_toInt_le, hn]
  unfold resolveRange? Store.resolveRange
  simp only [hfirst, hlast, Option.bind_eq_bind, Option.bind_some, hempty, ← hfirst', ← hlast']
  split_ifs with hcross
  · rfl
  · -- neither position is negative: the first one was clamped, and the last does not lie before it
    have hzero : (0 : Int64).toInt = 0 := Int64.toInt_zero
    have hpositive : 0 ≤ first := by
      rw [Int64.le_iff_toInt_le, hzero, hfirst']
      split_ifs <;> omega
    have hpositive' : 0 ≤ last := by
      rw [Int64.le_iff_toInt_le, hzero] at hpositive ⊢
      omega
    rw [position?, if_pos hpositive, position?, if_pos hpositive']
    rfl

end Range

/-- What trimming leaves of a list is worked out without an overflow, a negative position or a
position outside the list. -/
theorem trim?_eq {items : List String} (hlength : items.length < 2 ^ 63) (start stop : Int64) :
    trim? items start stop = some (if Store.between items start.toInt stop.toInt = [] then none
      else some (Store.between items start.toInt stop.toInt)) := by
  unfold trim?
  rw [resolveRange?_eq hlength]
  cases hrange : Store.resolveRange items.length start.toInt stop.toInt with
  | none =>
    rw [if_pos (Store.between_of_none hrange)]
    rfl
  | some range =>
    obtain ⟨first, last⟩ := range
    obtain ⟨hle, hlast⟩ := Store.resolveRange_le hrange
    have htruncate : truncate? (last + 1) items = some (items.take (last + 1)) := if_pos hlast
    have hdrain : drain? first (items.take (last + 1)) =
        some ((items.take (last + 1)).drop first) :=
      if_pos (by rw [List.length_take]; omega)
    have hbetween := Store.between_of_some hrange
    rw [if_neg (by rw [hbetween]; exact Store.drop_take_ne_nil hrange), hbetween]
    simp only [Option.bind_eq_bind, Option.bind_some, htruncate, hdrain]
    rfl

end Machine

namespace Store

/-! ### Trimming -/

/-- To trim a list keeps exactly the elements between the bounds, in their order and with the
deadline of the list; where there are none the key is removed. Whatever the bounds are, to work out
the positions of a list that fits into a memory goes well at every step. To trim a key that shows
nothing succeeds and changes nothing. -/
theorem ltrim_keeps_range {s : Store} (honline : s.offline = false) (now : Nat) (key : String)
    (start stop : Int64) :
    (∀ items e, s.live? now key = some ⟨.list items, e⟩ →
      ltrim now key start.toInt stop.toInt s = (.ok (),
        if between items start.toInt stop.toInt = [] then s.drop key
        else s.put key ⟨.list (between items start.toInt stop.toInt), e⟩) ∧
      (items.length < 2 ^ 63 → Machine.trim? items start stop =
        some (if between items start.toInt stop.toInt = [] then none
          else some (between items start.toInt stop.toInt)))) ∧
    (s.live? now key = none → ∃ s', ltrim now key start.toInt stop.toInt s = (.ok (), s') ∧
      Alike now s s') := by
  refine ⟨fun items e hlive ↦ ⟨ltrim_of_list honline hlive _ _, fun hlength ↦ ?_⟩,
    fun hnone ↦ ⟨s.settle now key, ltrim_of_none honline hnone _ _, alike_settle now s key⟩⟩
  exact Machine.trim?_eq hlength start stop

/-- From the least bound there is to the last element but one: all but the last is kept. -/
theorem ltrim_keeps_range_of_least_start :
    ltrim 0 "k" Int64.minValue.toInt (-2) (rpush 0 "k" ["a", "b", "c"] .empty).2 =
        (.ok (), (rpush 0 "k" ["a", "b", "c"] .empty).2.put "k" ⟨.list ["a", "b"], .never⟩) ∧
      Machine.trim? ["a", "b", "c"] Int64.minValue (-2) = some (some ["a", "b"]) := by
  have hbetween : between ["a", "b", "c"] Int64.minValue.toInt (-2 : Int64).toInt = ["a", "b"] := by
    decide
  obtain ⟨heq, htrim⟩ := (ltrim_keeps_range (s := (rpush 0 "k" ["a", "b", "c"] .empty).2)
    (by decide) 0 "k" Int64.minValue (-2)).1 ["a", "b", "c"] .never (by decide)
  rw [hbetween] at heq htrim
  exact ⟨heq, htrim (by decide)⟩

end Store

end TwoTier
