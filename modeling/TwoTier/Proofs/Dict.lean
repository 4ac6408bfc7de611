import Mathlib.Tactic.Common
import TwoTier.Dict

/-!
# Finite maps: members and numbers

What an insertion, a removal and a change under a key do to the number of keys of a map.
-/

set_option autoImplicit false
set_option relaxedAutoImplicit false

namespace TwoTier

namespace Dict

variable {κ α : Type} [Ord κ] [Std.TransOrd κ] [Std.LawfulEqOrd κ] [DecidableEq κ]

theorem getElem?_modify (d : Dict κ α) (k j : κ) (f : α → α) :
    (d.modify k f)[j]? = if j = k then d[j]?.map f else d[j]? := by
  rw [Std.ExtTreeMap.getElem?_modify]
  simp only [compare_eq_iff]
  split_ifs with h
  · rw [h]
  · rfl

omit [Std.LawfulEqOrd κ] [DecidableEq κ] in
theorem mem_iff_exists (d : Dict κ α) (k : κ) : k ∈ d ↔ ∃ a, d[k]? = some a := by
  rw [Std.ExtTreeMap.mem_iff_isSome_getElem?, Option.isSome_iff_exists]

omit [Std.LawfulEqOrd κ] [DecidableEq κ] in
theorem size_insert_of_mem {d : Dict κ α} {k : κ} (h : k ∈ d) (a : α) :
    (d.insert k a).size = d.size := by
  rw [Std.ExtTreeMap.size_insert, if_pos (Std.ExtTreeMap.mem_iff_contains.mp h)]

omit [Std.LawfulEqOrd κ] [DecidableEq κ] in
theorem size_insert_of_not_mem {d : Dict κ α} {k : κ} (h : k ∉ d) (a : α) :
    (d.insert k a).size = d.size + 1 := by
  rw [Std.ExtTreeMap.size_insert,
    if_neg fun hk ↦ h (Std.ExtTreeMap.mem_iff_contains.mpr hk)]

omit [Std.LawfulEqOrd κ] [DecidableEq κ] in
theorem size_erase_of_mem {d : Dict κ α} {k : κ} (h : k ∈ d) :
    (d.erase k).size = d.size - 1 := by
  rw [Std.ExtTreeMap.size_erase, if_pos (Std.ExtTreeMap.mem_iff_contains.mp h)]

omit [Std.LawfulEqOrd κ] [DecidableEq κ] in
theorem size_pos_of_mem {d : Dict κ α} {k : κ} (h : k ∈ d) : 0 < d.size := by
  rw [Nat.pos_iff_ne_zero]
  intro hsize
  rw [Std.ExtTreeMap.eq_empty_iff_size_eq_zero.mpr hsize] at h
  exact Std.ExtTreeMap.not_mem_empty h

end Dict

end TwoTier
