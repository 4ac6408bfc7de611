import TwoTier.Local.Cache
import TwoTier.Proofs.Local.Table

/-!
# What the operations of the local tier leave in its table

Every operation of the local tier is described by the table that it leaves. A look-up marks the
entry that it finds and removes one that has expired (`LocalCache.get?_lookup`); room is made by
removing keys (`LocalCache.exists_table_makeRoom`); an insertion stores its value or refuses it, and
what it does to other keys is to remove some of them (`LocalCache.get?_insert`).
-/

set_option autoImplicit false
set_option relaxedAutoImplicit false

namespace TwoTier

namespace Table

/-- The table without several keys, removed one after the other. -/
def removeAll (t : Table) (gone : List String) : Table := gone.foldl Table.remove t

@[simp] theorem removeAll_nil (t : Table) : t.removeAll [] = t := rfl

@[simp] theorem removeAll_cons (t : Table) (key : String) (gone : List String) :
    t.removeAll (key :: gone) = (t.remove key).removeAll gone := rfl

@[simp] theorem get?_removeAll (t : Table) (gone : List String) (j : String) :
    (t.removeAll gone).get? j = if j ∈ gone then none else t.get? j := by
  induction gone generalizing t with
  | nil => simp
  | cons key gone ih =>
    rw [removeAll_cons, ih, get?_remove]
    by_cases hj : j = key <;> by_cases hmem : j ∈ gone <;> simp [hj, hmem]

theorem Valid.removeAll {t : Table} (h : t.Valid) (gone : List String) :
    (t.removeAll gone).Valid := by
  induction gone generalizing t with
  | nil => exact h
  | cons key gone ih => exact ih (h.remove key)

theorem size_remove_le {t : Table} (h : t.Valid) (key : String) : (t.remove key).size ≤ t.size := by
  cases hkey : t.get? key with
  | none => exact Nat.le_of_eq (by rw [remove_of_get?_eq_none hkey])
  | some e =>
    rw [size_remove h (by rw [hkey]; rfl)]
    exact Nat.sub_le _ _

theorem size_removeAll_le {t : Table} (h : t.Valid) (gone : List String) :
    (t.removeAll gone).size ≤ t.size := by
  induction gone generalizing t with
  | nil => exact Nat.le_refl _
  | cons key gone ih => exact Nat.le_trans (ih (h.remove key)) (size_remove_le h key)

end Table

/-- An entry made now has the value and the expiry that were asked for. -/
theorem Entry.of_create? {now : Nat} {value : String} {ttl : Nat} {e : Entry}
    (h : Entry.create? now value ttl = some e) :
    e.value = value ∧ Expiry.after now ttl = some e.expiry := by
  obtain ⟨x, hx, rfl⟩ := Option.map_eq_some_iff.mp h
  exact ⟨rfl, hx⟩

namespace LocalCache

/-! ### Parts that stay -/

@[simp] theorem table_record (c : LocalCache) (e : Event) : (c.record e).table = c.table := rfl

@[simp] theorem maxKeys_record (c : LocalCache) (e : Event) :
    (c.record e).maxKeys = c.maxKeys := rfl

@[simp] theorem closed_record (c : LocalCache) (e : Event) : (c.record e).closed = c.closed := rfl

@[simp] theorem table_drop (c : LocalCache) (key : String) :
    (c.drop key).table = c.table.remove key := rfl

@[simp] theorem maxKeys_drop (c : LocalCache) (key : String) :
    (c.drop key).maxKeys = c.maxKeys := rfl

@[simp] theorem closed_drop (c : LocalCache) (key : String) : (c.drop key).closed = c.closed := rfl

@[simp] theorem table_note (c : LocalCache) (key : String) : (c.note key).table = c.table := by
  unfold note
  split <;> rfl

@[simp] theorem maxKeys_note (c : LocalCache) (key : String) :
    (c.note key).maxKeys = c.maxKeys := by
  unfold note
  split <;> rfl

@[simp] theorem closed_note (c : LocalCache) (key : String) : (c.note key).closed = c.closed := by
  unfold note
  split <;> rfl

/-! ### Looking a key up -/

/-- A look-up answers the value of the key's entry where it is live. -/
theorem fst_lookup (now : Nat) (key : String) (c : LocalCache) :
    (lookup now key c).1 =
      ((c.table.get? key).filter fun e ↦ e.live now).map Entry.value := by
  simp only [lookup, table_note]
  cases c.table.get? key with
  | none => rfl
  | some e =>
    simp only [Option.filter_some]
    split_ifs <;> rfl

/-- A look-up marks the entry that it finds, and removes one that has expired. -/
theorem get?_lookup (now : Nat) (key j : String) (c : LocalCache) :
    (lookup now key c).2.table.get? j =
      if j = key then ((c.table.get? key).filter fun e ↦ e.live now).map fun e ↦ e.touch now
      else c.table.get? j := by
  simp only [lookup, table_note]
  cases hkey : c.table.get? key with
  | none =>
    simp only [table_record, table_note]
    split_ifs with hj
    · rw [hj, hkey]
      rfl
    · rfl
  | some e =>
    simp only [Option.filter_some]
    by_cases hlive : e.live now = true
    · simp only [hlive, if_true, table_record, Table.get?_replace]
      split_ifs with hj
      · rw [hj, hkey]
        rfl
      · rfl
    · simp only [hlive, if_false, Bool.false_eq_true, table_record, table_drop, Table.get?_remove,
        table_note]
      split_ifs <;> rfl

/-- A look-up changes the table in one of three ways: not at all, by marking the entry, or by
removing it. -/
theorem table_lookup (now : Nat) (key : String) (c : LocalCache) :
    (lookup now key c).2.table = c.table ∨
      (∃ e, (lookup now key c).2.table = c.table.replace key e) ∨
      (lookup now key c).2.table = c.table.remove key := by
  simp only [lookup, table_note]
  split
  · left
    simp
  · rename_i e _
    split
    · right; left
      exact ⟨e.touch now, rfl⟩
    · right; right
      simp

theorem maxKeys_lookup (now : Nat) (key : String) (c : LocalCache) :
    (lookup now key c).2.maxKeys = c.maxKeys := by
  simp only [lookup]
  split
  · simp
  · split <;> simp

theorem closed_lookup (now : Nat) (key : String) (c : LocalCache) :
    (lookup now key c).2.closed = c.closed := by
  simp only [lookup]
  split
  · simp
  · split <;> simp

/-- A key is held and observable exactly where a look-up would find it. -/
theorem contains_eq_isSome_lookup (now : Nat) (key : String) (c : LocalCache) :
    contains now key c = (lookup now key c).1.isSome := by
  rw [fst_lookup]
  unfold contains
  cases c.table.get? key with
  | none => rfl
  | some e =>
    simp only [Option.filter_some]
    cases e.live now <;> rfl

/-! ### Making room -/

/-- The keys that a reclamation removes are among those it looks at. -/
theorem exists_table_reclaim (now : Nat) (keys : List String) (c : LocalCache) :
    ∃ gone, gone ⊆ keys ∧ (reclaim now keys c).table = c.table.removeAll gone := by
  induction keys generalizing c with
  | nil => exact ⟨[], List.nil_subset _, rfl⟩
  | cons key rest ih =>
    unfold reclaim
    split
    · obtain ⟨gone, hgone, htable⟩ := ih c
      exact ⟨gone, List.subset_cons_of_subset _ hgone, htable⟩
    · split
      · obtain ⟨gone, hgone, htable⟩ := ih c
        exact ⟨gone, List.subset_cons_of_subset _ hgone, htable⟩
      · obtain ⟨gone, hgone, htable⟩ := ih ((c.drop key).record .expired)
        exact ⟨key :: gone, List.cons_subset_cons _ hgone, htable⟩

theorem maxKeys_reclaim (now : Nat) (keys : List String) (c : LocalCache) :
    (reclaim now keys c).maxKeys = c.maxKeys := by
  induction keys generalizing c with
  | nil => rfl
  | cons key rest ih =>
    unfold reclaim
    split
    · exact ih c
    · split
      · exact ih c
      · rw [ih]
        rfl

theorem closed_reclaim (now : Nat) (keys : List String) (c : LocalCache) :
    (reclaim now keys c).closed = c.closed := by
  induction keys generalizing c with
  | nil => rfl
  | cons key rest ih =>
    unfold reclaim
    split
    · exact ih c
    · split
      · exact ih c
      · rw [ih]
        rfl

/-- Room is made by removing keys of the sample, and in no other way. -/
theorem exists_table_makeRoom (now : Nat) (newcomer : String) (c : LocalCache) :
    ∃ gone, (c.makeRoom now newcomer).2.table = c.table.removeAll gone := by
  obtain ⟨gone, -, htable⟩ :=
    exists_table_reclaim now c.sample { c with drawn := c.drawn + c.sample.length }
  unfold makeRoom
  dsimp only
  split
  · exact ⟨gone, htable⟩
  · split
    · exact ⟨[], rfl⟩
    · rename_i v _
      split
      · exact ⟨[], rfl⟩
      · exact ⟨[v], rfl⟩

theorem maxKeys_makeRoom (now : Nat) (newcomer : String) (c : LocalCache) :
    (c.makeRoom now newcomer).2.maxKeys = c.maxKeys := by
  unfold makeRoom
  dsimp only
  split
  · rw [maxKeys_reclaim]
  · split
    · rfl
    · split <;> rfl

theorem closed_makeRoom (now : Nat) (newcomer : String) (c : LocalCache) :
    (c.makeRoom now newcomer).2.closed = c.closed := by
  unfold makeRoom
  dsimp only
  split
  · rw [closed_reclaim]
  · split
    · rfl
    · split <;> rfl

/-! ### Inserting -/

theorem closed_place (now : Nat) (key value : String) (ttl : Nat) (c : LocalCache) :
    (place now key value ttl c).2.closed = c.closed := by
  unfold place
  split <;> rfl

theorem maxKeys_place (now : Nat) (key value : String) (ttl : Nat) (c : LocalCache) :
    (place now key value ttl c).2.maxKeys = c.maxKeys := by
  unfold place
  split <;> rfl

theorem maxKeys_insert (now : Nat) (key value : String) (ttl : Nat) (c : LocalCache) :
    (insert now key value ttl c).2.maxKeys = c.maxKeys := by
  have hmade := maxKeys_makeRoom now key c
  unfold insert
  split
  · split <;> rfl
  · split
    · split
      · rename_i c' hroom
        rw [hroom] at hmade
        exact hmade
      · rename_i c' hroom
        rw [hroom] at hmade
        rw [maxKeys_place, hmade]
    · exact maxKeys_place now key value ttl c

theorem closed_insert (now : Nat) (key value : String) (ttl : Nat) (c : LocalCache) :
    (insert now key value ttl c).2.closed = c.closed := by
  have hmade := closed_makeRoom now key c
  unfold insert
  split
  · split <;> rfl
  · split
    · split
      · rename_i c' hroom
        rw [hroom] at hmade
        exact hmade
      · rename_i c' hroom
        rw [hroom] at hmade
        rw [closed_place, hmade]
    · exact closed_place now key value ttl c

/-- How an insertion ends, and what the table holds under the key then. -/
inductive Inserted (now : Nat) (value : String) (ttl : Nat) (before after : Option Entry) :
    Insertion → Prop
  | added {e : Entry} (hbefore : before = none) (hafter : after = some e)
      (hvalue : e.value = value) (hexpiry : Expiry.after now ttl = some e.expiry) :
      Inserted now value ttl before after .added
  | updated {e : Entry} (hbefore : before ≠ none) (hafter : after = some e)
      (hvalue : e.value = value) (hexpiry : Expiry.after now ttl = some e.expiry) :
      Inserted now value ttl before after .updated
  | rejected (hbefore : before = none) (hafter : after = none) :
      Inserted now value ttl before after .rejected
  | overflow (hafter : after = before) (hexpiry : Expiry.after now ttl = none) :
      Inserted now value ttl before after .overflow

theorem get?_place (now : Nat) (key value : String) (ttl : Nat) (c : LocalCache)
    (hkey : c.table.get? key = none) :
    Inserted now value ttl none ((place now key value ttl c).2.table.get? key)
        (place now key value ttl c).1 ∧
      ∀ j ≠ key, (place now key value ttl c).2.table.get? j = c.table.get? j := by
  unfold place
  split
  · rename_i hcreate
    refine ⟨?_, fun j _ ↦ rfl⟩
    rw [hkey]
    exact .overflow rfl (Option.map_eq_none_iff.mp hcreate)
  · rename_i e hcreate
    obtain ⟨hvalue, hexpiry⟩ := Entry.of_create? hcreate
    refine ⟨.added rfl ?_ hvalue hexpiry, fun j hj ↦ ?_⟩
    · simp
    · simp [hj]

/-- What an insertion leaves under its own key, and that it adds nothing under others. -/
theorem get?_insert (now : Nat) (key value : String) (ttl : Nat) (c : LocalCache) :
    Inserted now value ttl (c.table.get? key) ((insert now key value ttl c).2.table.get? key)
        (insert now key value ttl c).1 ∧
      ∀ j ≠ key, (insert now key value ttl c).2.table.get? j = none ∨
        (insert now key value ttl c).2.table.get? j = c.table.get? j := by
  unfold insert
  split
  · rename_i old hold
    split
    · rename_i hcreate
      refine ⟨?_, fun j _ ↦ Or.inr rfl⟩
      rw [hold]
      exact .overflow rfl (Option.map_eq_none_iff.mp hcreate)
    · rename_i e hcreate
      obtain ⟨hvalue, hexpiry⟩ := Entry.of_create? hcreate
      refine ⟨?_, fun j hj ↦ Or.inr ?_⟩
      · refine .updated (e := { e with frequency := old.frequency }) ?_ ?_ hvalue hexpiry
        · rw [hold]
          exact Option.some_ne_none old
        · simp [hold]
      · simp [hj]
  · rename_i hkey
    rw [hkey]
    split
    · obtain ⟨gone, htable⟩ := exists_table_makeRoom now key c
      have hget : ∀ j, (c.makeRoom now key).2.table.get? j = none ∨
          (c.makeRoom now key).2.table.get? j = c.table.get? j := by
        intro j
        rw [htable, Table.get?_removeAll]
        split_ifs
        · exact Or.inl rfl
        · exact Or.inr rfl
      have hmade : (c.makeRoom now key).2.table.get? key = none := by
        rcases hget key with h | h
        · exact h
        · rw [h, hkey]
      split
      · rename_i c' hroom
        rw [hroom] at hmade hget
        exact ⟨.rejected rfl hmade, fun j _ ↦ hget j⟩
      · rename_i c' hroom
        rw [hroom] at hmade hget
        obtain ⟨hself, hothers⟩ := get?_place now key value ttl c' hmade
        refine ⟨hself, fun j hj ↦ ?_⟩
        rw [hothers j hj]
        exact hget j
    · obtain ⟨hself, hothers⟩ := get?_place now key value ttl c hkey
      exact ⟨hself, fun j hj ↦ Or.inr (hothers j hj)⟩

/-- An insertion ends so only where its deadline lies beyond the clock. -/
theorem after_of_overflow {now ttl : Nat} {key value : String} {c : LocalCache}
    (h : (insert now key value ttl c).1 = .overflow) : Expiry.after now ttl = none := by
  have hself := (get?_insert now key value ttl c).1
  rw [h] at hself
  cases hself with
  | overflow _ hexpiry => exact hexpiry

/-! ### Removing what has expired -/

/-- What is left once some keys were dropped, each as expired. -/
theorem foldl_drop (keys : List String) (c : LocalCache) :
    let c' := keys.foldl (fun c key ↦ (c.drop key).record .expired) c
    c'.table = c.table.removeAll keys ∧ c'.maxKeys = c.maxKeys ∧ c'.closed = c.closed := by
  induction keys generalizing c with
  | nil => exact ⟨rfl, rfl, rfl⟩
  | cons key rest ih => exact ih ((c.drop key).record .expired)

theorem table_purgeExpired (now : Nat) (c : LocalCache) :
    (purgeExpired now c).2.table = c.table.removeAll (c.table.expiredKeys now) :=
  (foldl_drop _ c).1

theorem maxKeys_purgeExpired (now : Nat) (c : LocalCache) :
    (purgeExpired now c).2.maxKeys = c.maxKeys :=
  (foldl_drop _ c).2.1

end LocalCache

end TwoTier
