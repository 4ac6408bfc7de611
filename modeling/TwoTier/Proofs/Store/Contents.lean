import Mathlib.Tactic.Common
import TwoTier.Store.Basic

/-!
# What the operations on texts leave in the store

A read removes the key where it has expired and changes no other data (`Store.getElem?_settle`);
what it answers is read from the live value (`Store.fst_get`, `Store.contains_eq`).
-/

set_option autoImplicit false
set_option relaxedAutoImplicit false

namespace TwoTier

namespace Store

/-- After a key was settled the store holds it exactly where it is live. -/
theorem getElem?_settle (s : Store) (now : Nat) (key j : String) :
    (s.settle now key).data[j]? = if j = key then s.live? now key else s.data[j]? := by
  unfold settle live?
  cases hkey : s.data[key]? with
  | none =>
    simp only [Option.filter_none]
    split_ifs with hj
    · rw [hj, hkey]
    · rfl
  | some x =>
    simp only [Option.filter_some]
    split_ifs with hlive hj hj
    · rw [hj, hkey]
    · rfl
    · simp [drop, hj]
    · simp [drop, hj]

@[simp] theorem offline_settle (s : Store) (now : Nat) (key : String) :
    (s.settle now key).offline = s.offline := by
  unfold settle
  split
  · split <;> rfl
  · rfl

section Online

variable {s : Store} (honline : s.offline = false) (now : Nat) (key : String)

include honline

/-- What a read of a text answers. -/
theorem fst_get : (get now key s).1 =
    match s.live? now key with
    | some ⟨.text v, _⟩ => .ok v
    | some _ => .fault (.wrongKind key)
    | none => .fault .notFound := by
  have hkey := getElem?_settle s now key key
  rw [if_pos rfl] at hkey
  simp only [get, whenOnline, honline, Bool.false_eq_true, if_false, hkey]
  cases s.live? now key with
  | none => rfl
  | some x =>
    obtain ⟨datum, expiry⟩ := x
    cases datum <;> rfl

theorem data_get : (get now key s).2.data = (s.settle now key).data := by
  simp only [get, whenOnline, honline, Bool.false_eq_true, if_false]
  split <;> rfl

theorem offline_get : (get now key s).2.offline = false := by
  have hsettle := offline_settle s now key
  rw [honline] at hsettle
  simp only [get, whenOnline, honline, Bool.false_eq_true, if_false]
  split <;> exact hsettle

theorem contains_eq : contains now key s =
    (.ok (s.live? now key).isSome, s.settle now key) := by
  have hkey := getElem?_settle s now key key
  rw [if_pos rfl] at hkey
  simp only [contains, whenOnline, honline, Bool.false_eq_true, if_false, hkey]

theorem set_eq (value : String) (ttl : Nat) : set now key value ttl s =
    match Expiry.after now ttl with
    | some e => (.ok (), s.put key ⟨.text value, e⟩)
    | none => (.overflow, s) := by
  have hopen : ¬ s.offline = true := by
    rw [honline]
    exact Bool.false_ne_true
  exact (if_neg hopen).trans rfl

theorem del_eq : del key s = (.ok (), s.drop key) := by
  simp only [del, whenOnline, honline, Bool.false_eq_true, if_false]

end Online

end Store

end TwoTier
