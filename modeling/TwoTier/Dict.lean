import Std.Data.ExtTreeMap

/-!
Finite maps.

A `Dict κ α` is a search tree over the order of its keys, taken without its shape: two maps with
the same value under every key are equal (`Std.ExtTreeMap.ext_getElem?`). A look-up `d[k]?` takes
time in the logarithm of the number of keys, and at concrete keys it computes inside a proof as
well as in the running program. Keys are listed in their order.

An insertion and a removal change the view of a map at one key and nowhere else
(`getElem?_insert`, `getElem?_erase`).
-/

set_option autoImplicit false
set_option relaxedAutoImplicit false

namespace TwoTier

universe u v

/-- A finite map from keys to values. -/
abbrev Dict (κ : Type u) (α : Type v) [Ord κ] := Std.ExtTreeMap κ α

namespace Dict

variable {κ : Type u} {α : Type v} [Ord κ] [Std.TransOrd κ] [Std.LawfulEqOrd κ] [DecidableEq κ]

omit [Std.TransOrd κ] [DecidableEq κ] in
theorem compare_eq_iff (k j : κ) : compare k j = .eq ↔ j = k :=
  Std.LawfulEqOrd.compare_eq_iff_eq.trans eq_comm

@[simp] theorem getElem?_insert (d : Dict κ α) (k j : κ) (a : α) :
    (d.insert k a)[j]? = if j = k then some a else d[j]? := by
  simp only [Std.ExtTreeMap.getElem?_insert, compare_eq_iff]

@[simp] theorem getElem?_erase (d : Dict κ α) (k j : κ) :
    (d.erase k)[j]? = if j = k then none else d[j]? := by
  simp only [Std.ExtTreeMap.getElem?_erase, compare_eq_iff]

@[simp] theorem getD_insert (d : Dict κ α) (k j : κ) (a b : α) :
    (d.insert k a).getD j b = if j = k then a else d.getD j b := by
  simp only [Std.ExtTreeMap.getD_insert, compare_eq_iff]

end Dict

end TwoTier
