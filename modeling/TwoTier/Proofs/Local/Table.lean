import TwoTier.Local.Table
import TwoTier.Proofs.Dict

/-!
# The table under its three changes

A key leaves by an exchange with the last one, a newcomer takes the first free position, and a
resident key keeps its position when its entry is replaced. For each of these this module gives the
view of the table afterwards (`Table.get?_remove`, `Table.get?_push`, `Table.get?_replace`), the
number of its keys, and that the two parts of the table still belong together
(`Table.Valid.remove`, `Table.Valid.push`, `Table.Valid.replace`).

The views need no validity: a key that is given another position keeps its entry.
-/

set_option autoImplicit false
set_option relaxedAutoImplicit false

namespace TwoTier

namespace Table

/-! ### Positions -/

/-- A position of a valid table is taken exactly where it lies below the number of keys. -/
theorem Valid.exists_key_iff {t : Table} (h : t.Valid) (i : Nat) :
    (∃ key, t.keys[i]? = some key) ↔ i < t.keys.size := by
  rw [← Dict.mem_iff_exists, h.dense]

theorem Valid.getElem?_eq_none {t : Table} (h : t.Valid) {i : Nat} (hi : t.keys.size ≤ i) :
    t.keys[i]? = none := by
  by_contra hne
  have hlt := (h.exists_key_iff i).mp (Option.ne_none_iff_exists'.mp hne)
  omega

/-- Each slot of a valid table names a position that is taken. -/
theorem Valid.index_lt {t : Table} (h : t.Valid) {key : String} {slot : Slot}
    (hslot : t.slots[key]? = some slot) : slot.index < t.keys.size :=
  (h.exists_key_iff slot.index).mp ⟨key, h.position key slot hslot⟩

/-- The slot of the key at a position names this position. -/
theorem Valid.exists_slot {t : Table} (h : t.Valid) {i : Nat} {key : String}
    (hi : t.keys[i]? = some key) : ∃ slot, t.slots[key]? = some slot ∧ slot.index = i := by
  obtain ⟨slot, hslot⟩ := (Dict.mem_iff_exists _ _).mp ((h.mem_iff key).mp ⟨i, hi⟩)
  exact ⟨slot, hslot, h.nodup _ _ key (h.position key slot hslot) hi⟩

/-- The keys after the exchange: the last key stands at the free position. -/
theorem getElem?_swapRemove {keys : Dict Nat String} {i : Nat} {last : String}
    (hlast : keys[keys.size - 1]? = some last) (j : Nat) :
    (swapRemove keys i)[j]? =
      if j = keys.size - 1 then none else if j = i then some last else keys[j]? := by
  simp only [swapRemove, hlast, Dict.getElem?_erase, Dict.getElem?_insert]

theorem size_swapRemove {keys : Dict Nat String} {i : Nat} {last : String}
    (hlast : keys[keys.size - 1]? = some last) (hi : i ∈ keys) :
    (swapRemove keys i).size = keys.size - 1 := by
  simp only [swapRemove, hlast]
  have hmem : keys.size - 1 ∈ keys.insert i last :=
    Std.ExtTreeMap.mem_insert.mpr (Or.inr ((Dict.mem_iff_exists _ _).mpr ⟨last, hlast⟩))
  rw [Dict.size_erase_of_mem hmem, Dict.size_insert_of_mem hi]

/-! ### The views -/

@[simp] theorem get?_empty (key : String) : empty.get? key = none := rfl

theorem mem_slots_iff (t : Table) (key : String) :
    key ∈ t.slots ↔ (t.get? key).isSome := by
  rw [Dict.mem_iff_exists, get?, Option.isSome_map, Option.isSome_iff_exists]

/-- A change of positions changes no entry. -/
theorem map_entry_relocate (slots : Dict String Slot) (keys : Dict Nat String) (i : Nat)
    (key : String) :
    ((relocate slots keys i)[key]?).map Slot.entry = (slots[key]?).map Slot.entry := by
  unfold relocate
  split
  · rw [Dict.getElem?_modify]
    split_ifs
    · rw [Option.map_map]
      rfl
    · rfl
  · rfl

@[simp] theorem get?_remove (t : Table) (key j : String) :
    (t.remove key).get? j = if j = key then none else t.get? j := by
  unfold remove
  cases hslot : t.slots[key]? with
  | none =>
    split_ifs with h
    · rw [h, get?, hslot]
      rfl
    · rfl
  | some slot =>
    simp only [get?]
    rw [map_entry_relocate, Dict.getElem?_erase]
    split_ifs <;> rfl

@[simp] theorem get?_push (t : Table) (key j : String) (e : Entry) :
    (t.push key e).get? j = if j = key then some e else t.get? j := by
  simp only [push, get?, Dict.getElem?_insert]
  split_ifs <;> rfl

@[simp] theorem get?_replace (t : Table) (key j : String) (e : Entry) :
    (t.replace key e).get? j = if j = key then (t.get? j).map fun _ ↦ e else t.get? j := by
  simp only [replace, get?, Dict.getElem?_modify]
  split_ifs
  · rw [Option.map_map, Option.map_map]
    rfl
  · rfl

/-! ### Validity -/

theorem valid_empty : empty.Valid where
  dense i := by simp [empty]
  nodup i j key h := by simp [empty] at h
  mem_iff key := by simp [empty]
  position key slot h := by simp [empty] at h

/-- A valid table with a key has a last one. -/
theorem Valid.exists_last {t : Table} (h : t.Valid) {key : String} {slot : Slot}
    (hslot : t.slots[key]? = some slot) : ∃ last, t.keys[t.keys.size - 1]? = some last := by
  rw [h.exists_key_iff]
  have := h.index_lt hslot
  omega

theorem size_remove {t : Table} (h : t.Valid) {key : String} (hkey : (t.get? key).isSome) :
    (t.remove key).size = t.size - 1 := by
  obtain ⟨slot, hslot⟩ := (Dict.mem_iff_exists _ _).mp ((mem_slots_iff t key).mpr hkey)
  obtain ⟨last, hlast⟩ := h.exists_last hslot
  simp only [remove, hslot, size]
  exact size_swapRemove hlast ((h.dense _).mpr (h.index_lt hslot))

theorem remove_of_get?_eq_none {t : Table} {key : String} (hkey : t.get? key = none) :
    t.remove key = t := by
  simp only [remove, Option.map_eq_none_iff.mp hkey]

theorem size_push {t : Table} (h : t.Valid) (key : String) (e : Entry) :
    (t.push key e).size = t.size + 1 :=
  Dict.size_insert_of_not_mem (fun hmem ↦ Nat.lt_irrefl _ ((h.dense _).mp hmem)) key

/-- Which key stands where after a key left a valid table: the last key took its position, and all
others stand where they stood. -/
theorem Valid.keys_remove_iff {t : Table} (h : t.Valid) {key : String} {slot : Slot}
    (hslot : t.slots[key]? = some slot) (i : Nat) (k : String) :
    (t.remove key).keys[i]? = some k ↔ i < t.keys.size - 1 ∧
      t.keys[if i = slot.index then t.keys.size - 1 else i]? = some k := by
  obtain ⟨last, hlast⟩ := h.exists_last hslot
  have hkeys : (t.remove key).keys = swapRemove t.keys slot.index := by
    simp only [Table.remove, hslot]
  have hindex := h.index_lt hslot
  rw [hkeys, getElem?_swapRemove hlast]
  by_cases hi : i = t.keys.size - 1
  · simp [hi]
  · rw [if_neg hi]
    split_ifs with hs
    · rw [hlast]
      constructor
      · intro hk
        exact ⟨by omega, hk⟩
      · exact And.right
    · constructor
      · intro hk
        have := (h.exists_key_iff i).mp ⟨k, hk⟩
        exact ⟨by omega, hk⟩
      · exact And.right

/-- A key of a valid table other than the one that leaves keeps a position below the last, or takes
the one that has become free. -/
theorem Valid.getElem?_slots_remove {t : Table} (h : t.Valid) {key : String} {slot : Slot}
    (hslot : t.slots[key]? = some slot) {j : String} (hj : j ≠ key) {s : Slot}
    (hs : t.slots[j]? = some s) :
    (t.remove key).slots[j]? =
      some (if s.index = t.keys.size - 1 then { s with index := slot.index } else s) := by
  obtain ⟨last, hlast⟩ := h.exists_last hslot
  have hkey := h.position key slot hslot
  have hposition := h.position j s hs
  have hne : s.index ≠ slot.index := by
    intro heq
    rw [heq, hkey] at hposition
    exact hj (Option.some.inj hposition).symm
  simp only [remove, hslot, relocate]
  rw [getElem?_swapRemove hlast, if_pos (rfl : slot.index = slot.index)]
  by_cases hend : slot.index = t.keys.size - 1
  · rw [if_pos hend, if_neg fun heq ↦ hne (heq.trans hend.symm)]
    simpa [hj] using hs
  · rw [if_neg hend]
    simp only [Dict.getElem?_modify, Dict.getElem?_erase, if_neg hj, hs]
    by_cases hlastIndex : s.index = t.keys.size - 1
    · rw [hlastIndex, hlast] at hposition
      rw [if_pos (Option.some.inj hposition).symm, if_pos hlastIndex]
      rfl
    · have hjlast : j ≠ last := by
        rintro rfl
        exact hlastIndex (h.nodup _ _ j hposition hlast)
      rw [if_neg hjlast, if_neg hlastIndex]

/-- What remains in the slots once a key has left. -/
theorem mem_slots_remove_iff (t : Table) (key j : String) :
    j ∈ (t.remove key).slots ↔ j ≠ key ∧ j ∈ t.slots := by
  rw [mem_slots_iff, mem_slots_iff, get?_remove]
  split_ifs with hj <;> simp [hj]

/-- No position holds a key that has left a valid table. -/
theorem Valid.ne_of_keys_remove {t : Table} (h : t.Valid) {key : String} {slot : Slot}
    (hslot : t.slots[key]? = some slot) {i : Nat} {k : String}
    (hi : (t.remove key).keys[i]? = some k) : k ≠ key := by
  rintro rfl
  obtain ⟨hlt, hi⟩ := (h.keys_remove_iff hslot i k).mp hi
  have heq := h.nodup _ _ k hi (h.position k slot hslot)
  split_ifs at heq with hs
  · omega
  · exact hs heq

/-- Each slot names the position of its key also after a key left. -/
theorem Valid.position_remove {t : Table} (h : t.Valid) {key : String} {slot : Slot}
    (hslot : t.slots[key]? = some slot) (j : String) (s : Slot)
    (hs : (t.remove key).slots[j]? = some s) : (t.remove key).keys[s.index]? = some j := by
  obtain ⟨hj, hmem⟩ := (mem_slots_remove_iff t key j).mp ((Dict.mem_iff_exists _ _).mpr ⟨s, hs⟩)
  obtain ⟨old, hold⟩ := (Dict.mem_iff_exists _ _).mp hmem
  have holdAt := h.position j old hold
  have holdLt := h.index_lt hold
  have hne : old.index ≠ slot.index := by
    intro heq
    rw [heq, h.position key slot hslot] at holdAt
    exact hj (Option.some.inj holdAt).symm
  rw [h.getElem?_slots_remove hslot hj hold] at hs
  rw [h.keys_remove_iff hslot]
  have hindex := h.index_lt hslot
  split_ifs at hs with hlast
  · obtain rfl := Option.some.inj hs
    simp only [if_true]
    rw [hlast] at holdAt hne
    exact ⟨by omega, holdAt⟩
  · obtain rfl := Option.some.inj hs
    rw [if_neg hne]
    exact ⟨by omega, holdAt⟩

/-- A table from which a key leaves stays valid. -/
theorem Valid.remove {t : Table} (h : t.Valid) (key : String) : (t.remove key).Valid := by
  cases hslot : t.slots[key]? with
  | none =>
    rw [remove_of_get?_eq_none (by rw [get?, hslot]; rfl)]
    exact h
  | some slot =>
    have hindex := h.index_lt hslot
    have hsize : (t.remove key).keys.size = t.keys.size - 1 :=
      size_remove h (by rw [get?, hslot]; rfl)
    have hat := h.keys_remove_iff hslot
    refine ⟨fun i ↦ ?_, fun i j k hi hj ↦ ?_, fun k ↦ ⟨?_, ?_⟩, h.position_remove hslot⟩
    · rw [Dict.mem_iff_exists, hsize]
      simp only [hat]
      constructor
      · rintro ⟨k, hi, -⟩
        exact hi
      · intro hi
        obtain ⟨k, hk⟩ := (h.exists_key_iff (if i = slot.index then t.keys.size - 1 else i)).mpr
          (by split_ifs <;> omega)
        exact ⟨k, hi, hk⟩
    · obtain ⟨hilt, hi⟩ := (hat i k).mp hi
      obtain ⟨hjlt, hj⟩ := (hat j k).mp hj
      have heq := h.nodup _ _ k hi hj
      split_ifs at heq with h₁ h₂ h₂ <;> omega
    · rintro ⟨i, hi⟩
      rw [mem_slots_remove_iff]
      exact ⟨h.ne_of_keys_remove hslot hi, (h.mem_iff k).mp ⟨_, ((hat i k).mp hi).2⟩⟩
    · intro hk
      obtain ⟨s, hs⟩ := (Dict.mem_iff_exists _ _).mp hk
      exact ⟨s.index, h.position_remove hslot k s hs⟩

/-- A table that a newcomer joins stays valid. -/
theorem Valid.push {t : Table} (h : t.Valid) {key : String} (hkey : t.get? key = none)
    (e : Entry) : (t.push key e).Valid := by
  have hslot : t.slots[key]? = none := Option.map_eq_none_iff.mp hkey
  have hfree : t.keys[t.keys.size]? = none := h.getElem?_eq_none (Nat.le_refl _)
  have hat : ∀ i : Nat,
      (t.push key e).keys[i]? = if i = t.keys.size then some key else t.keys[i]? :=
    fun i ↦ by simp only [Table.push, Dict.getElem?_insert]
  have hslots : ∀ j : String, (t.push key e).slots[j]? =
      if j = key then some ⟨e, t.keys.size⟩ else t.slots[j]? :=
    fun j ↦ by simp only [Table.push, Dict.getElem?_insert]
  have habsent : ∀ i : Nat, t.keys[i]? ≠ some key := by
    intro i hi
    obtain ⟨s, hs, -⟩ := h.exists_slot hi
    rw [hslot] at hs
    exact Option.some_ne_none s hs.symm
  refine ⟨fun i ↦ ?_, fun i j k hi hj ↦ ?_, fun k ↦ ?_, fun k s hs ↦ ?_⟩
  · have hsize : (t.push key e).keys.size = t.keys.size + 1 := size_push h key e
    rw [hsize, Dict.mem_iff_exists, hat]
    split_ifs with hi
    · simp [hi]
    · rw [h.exists_key_iff]
      omega
  · rw [hat] at hi hj
    split_ifs at hi hj with h₁ h₂ h₂
    · rw [h₁, h₂]
    · obtain rfl := Option.some.inj hi
      exact absurd hj (habsent j)
    · obtain rfl := Option.some.inj hj
      exact absurd hi (habsent i)
    · exact h.nodup i j k hi hj
  · rw [Dict.mem_iff_exists]
    simp only [hat, hslots]
    by_cases hk : k = key
    · simp only [hk, if_true]
      exact ⟨fun _ ↦ ⟨_, rfl⟩, fun _ ↦ ⟨t.keys.size, by simp⟩⟩
    · rw [if_neg hk, ← Dict.mem_iff_exists, ← h.mem_iff]
      constructor
      · rintro ⟨i, hi⟩
        split_ifs at hi
        · exact absurd (Option.some.inj hi).symm hk
        · exact ⟨i, hi⟩
      · rintro ⟨i, hi⟩
        have hlt := (h.exists_key_iff i).mp ⟨k, hi⟩
        exact ⟨i, by rw [if_neg (by omega)]; exact hi⟩
  · rw [hslots] at hs
    rw [hat]
    split_ifs at hs with hk
    · obtain rfl := Option.some.inj hs
      rw [if_pos rfl, hk]
    · have hlt := h.index_lt hs
      rw [if_neg (by omega)]
      exact h.position k s hs

/-- A table stays valid where an entry is replaced. -/
theorem Valid.replace {t : Table} (h : t.Valid) (key : String) (e : Entry) :
    (t.replace key e).Valid where
  dense := h.dense
  nodup := h.nodup
  mem_iff k := by
    change (∃ i : Nat, t.keys[i]? = some k) ↔ _
    rw [mem_slots_iff, get?_replace, h.mem_iff, mem_slots_iff]
    split_ifs <;> simp
  position k s hs := by
    simp only [Table.replace, Dict.getElem?_modify] at hs
    split_ifs at hs with hk
    · obtain ⟨old, hold, rfl⟩ := Option.map_eq_some_iff.mp hs
      exact h.position k old hold
    · exact h.position k s hs

end Table

end TwoTier
