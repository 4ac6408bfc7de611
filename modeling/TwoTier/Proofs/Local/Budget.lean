import TwoTier.Proofs.Local.Contents

/-!
# The table of the local tier and its budget

The states of a local tier are those that its operations reach from an empty cache, at any moments
and for every outcome of its draws (`LocalCache.Reachable`). In all of them the positions and the
slots of the table belong together, and there are never more keys than the budget allows
(`LocalCache.Sound`).

The budget rests on the table. A sample of a valid table is as long as it should be and holds
resident keys only (`LocalCache.length_sample`, `LocalCache.isSome_get?_of_mem_sample`), so that a
full cache finds a victim, and room is made whenever the newcomer is admitted
(`LocalCache.size_makeRoom_lt`).
-/

set_option autoImplicit false
set_option relaxedAutoImplicit false

namespace TwoTier

namespace LocalCache

/-! ### The sample -/

/-- The position that a draw names is taken. -/
theorem exists_key_drawn {c : LocalCache} (h : c.table.Valid) {i : Nat}
    (hi : i < min sampleSize c.size) :
    ∃ key, c.table.keys[c.rolls (c.drawn + i) % c.size]? = some key := by
  rw [h.exists_key_iff]
  exact Nat.mod_lt _ (by omega)

/-- No draw of a sample is lost. -/
theorem length_sample {c : LocalCache} (h : c.table.Valid) :
    c.sample.length = min sampleSize c.size := by
  have hall : ∀ i ∈ List.range (min sampleSize c.size),
      (c.table.keys[c.rolls (c.drawn + i) % c.size]?).isSome := by
    intro i hi
    obtain ⟨key, hkey⟩ := exists_key_drawn h (List.mem_range.mp hi)
    rw [hkey]
    rfl
  rw [sample, List.length_filterMap_eq_countP, List.countP_eq_length.mpr hall, List.length_range]

theorem isSome_get?_of_mem_sample {c : LocalCache} (h : c.table.Valid) {key : String}
    (hkey : key ∈ c.sample) : (c.table.get? key).isSome := by
  obtain ⟨i, -, hi⟩ := List.mem_filterMap.mp hkey
  rw [← Table.mem_slots_iff, ← h.mem_iff]
  exact ⟨_, hi⟩

theorem sample_ne_nil {c : LocalCache} (h : c.table.Valid) (hsize : 0 < c.size) :
    c.sample ≠ [] := by
  rw [← List.length_pos_iff, length_sample h]
  exact Nat.lt_min.mpr ⟨by decide, hsize⟩

/-! ### The victim -/

/-- What is found to be coldest is one of the keys looked at. -/
theorem mem_of_coldest {c : LocalCache} {best : Option (Rank × String)} {keys : List String}
    {key : String} (h : c.coldest best keys = some key) :
    key ∈ keys ∨ best.map Prod.snd = some key := by
  induction keys generalizing best with
  | nil => exact Or.inr h
  | cons k rest ih =>
    unfold coldest at h
    split at h
    · rcases ih h with hmem | hbest
      · exact Or.inl (List.mem_cons_of_mem _ hmem)
      · exact Or.inr hbest
    · rcases ih h with hmem | hbest
      · exact Or.inl (List.mem_cons_of_mem _ hmem)
      · exact Or.inl (List.mem_cons.mpr (Or.inl (Option.some.inj hbest).symm))
    · split at h
      · rcases ih h with hmem | hbest
        · exact Or.inl (List.mem_cons_of_mem _ hmem)
        · exact Or.inl (List.mem_cons.mpr (Or.inl (Option.some.inj hbest).symm))
      · rcases ih h with hmem | hbest
        · exact Or.inl (List.mem_cons_of_mem _ hmem)
        · exact Or.inr hbest

/-- A coldest key is found where one has been found before, or where a resident key is looked
at. -/
theorem isSome_coldest {c : LocalCache} {best : Option (Rank × String)} {keys : List String}
    (h : best.isSome ∨ ∃ key ∈ keys, (c.table.get? key).isSome) :
    (c.coldest best keys).isSome := by
  induction keys generalizing best with
  | nil =>
    rcases h with hbest | ⟨key, hkey, -⟩
    · rw [coldest, Option.isSome_map]
      exact hbest
    · exact absurd hkey (List.not_mem_nil)
  | cons k rest ih =>
    unfold coldest
    split
    · rename_i hrank
      apply ih
      rcases h with hbest | ⟨key, hkey, hresident⟩
      · exact Or.inl hbest
      · rcases List.mem_cons.mp hkey with rfl | hrest
        · rw [Option.map_eq_none_iff.mp hrank] at hresident
          exact absurd hresident (by decide)
        · exact Or.inr ⟨key, hrest, hresident⟩
    · exact ih (Or.inl rfl)
    · split
      · exact ih (Or.inl rfl)
      · exact ih (Or.inl rfl)

theorem mem_of_victim {c : LocalCache} {keys : List String} {key : String}
    (h : c.victim keys = some key) : key ∈ keys := by
  unfold victim at h
  split at h
  · exact List.mem_of_head? h
  · rcases mem_of_coldest h with hmem | hbest
    · exact hmem
    · exact absurd hbest (Option.some_ne_none key).symm

theorem exists_victim {c : LocalCache} {keys : List String} (hne : keys ≠ [])
    (hkeys : ∀ key ∈ keys, (c.table.get? key).isSome) : ∃ key, c.victim keys = some key := by
  rw [← Option.isSome_iff_exists]
  obtain ⟨key, rest, rfl⟩ := List.exists_cons_of_ne_nil hne
  unfold victim
  split
  · rfl
  · exact isSome_coldest (Or.inr ⟨key, List.mem_cons_self, hkeys key List.mem_cons_self⟩)

/-! ### Room in a full cache -/

/-- A full cache has room once a newcomer was admitted. -/
theorem size_makeRoom_lt {c : LocalCache} (h : c.table.Valid) (hsize : 0 < c.size) (now : Nat)
    {newcomer : String} (hroom : (c.makeRoom now newcomer).1 = true) :
    (c.makeRoom now newcomer).2.size < c.size := by
  obtain ⟨v, hv⟩ := exists_victim (c := { c with drawn := c.drawn + c.sample.length })
    (sample_ne_nil h hsize) fun key hkey ↦ isSome_get?_of_mem_sample h hkey
  have hresident := isSome_get?_of_mem_sample h (mem_of_victim hv)
  unfold makeRoom at hroom ⊢
  dsimp only at hroom ⊢
  split at hroom
  · rename_i hless
    rw [if_pos hless]
    exact hless
  · rename_i hless
    rw [if_neg hless]
    simp only [hv] at hroom ⊢
    split at hroom
    · exact absurd hroom Bool.false_ne_true
    · rename_i hcold
      rw [if_neg hcold]
      change (c.table.remove v).size < c.table.size
      rw [Table.size_remove h hresident]
      exact Nat.sub_lt hsize Nat.one_pos

/-- A refusal leaves the table as it was. -/
theorem table_makeRoom_of_refused {c : LocalCache} {now : Nat} {newcomer : String}
    (hroom : (c.makeRoom now newcomer).1 = false) :
    (c.makeRoom now newcomer).2.table = c.table := by
  unfold makeRoom at hroom ⊢
  dsimp only at hroom ⊢
  split at hroom
  · exact absurd hroom Bool.false_ne_true.symm
  · rename_i hless
    rw [if_neg hless]
    split at hroom
    · exact absurd hroom Bool.false_ne_true.symm
    · split at hroom
      · rename_i hcold
        simp only [hcold, if_true]
      · exact absurd hroom Bool.false_ne_true.symm

/-! ### The states of a local tier -/

/-- What is done to a local tier. -/
inductive Action where
  /-- A caller or a fill inserts a key, which expires after `ttl`. -/
  | insert (key value : String) (ttl : Nat)
  /-- A key is looked up. -/
  | lookup (key : String)
  /-- It is asked whether a key is held. -/
  | contains (key : String)
  /-- A caller removes a key. -/
  | remove (key : String)
  /-- The expired entries are removed. -/
  | purgeExpired
  /-- All entries are removed. -/
  | clear
  /-- The tier is closed. -/
  | close
  /-- A notice removes a key. -/
  | notice (key : String)

/-- The cache after something was done to it. An insertion whose deadline lies beyond the clock
leaves the cache that it had come to. -/
def Action.apply (now : Nat) : Action → LocalCache → LocalCache
  | insert key value ttl, c => (c.insert now key value ttl).2
  | lookup key, c => (c.lookup now key).2
  | contains _, c => c
  | remove key, c => (c.remove key).2
  | purgeExpired, c => (c.purgeExpired now).2
  | clear, c => c.clear
  | close, c => c.close
  | notice key, c => c.drop key

/-- The states of a local tier with some settings: each is the empty cache after any operations at
any moments. -/
inductive Reachable (chance : Chance) (s : LocalSettings) : LocalCache → Prop
  | create : Reachable chance s (create chance s)
  | act {c : LocalCache} (now : Nat) (a : Action) (h : Reachable chance s c) :
      Reachable chance s (a.apply now c)

/-- The table is valid, and its keys are within the budget. -/
structure Sound (c : LocalCache) : Prop where
  valid : c.table.Valid
  budget_pos : 1 ≤ c.maxKeys
  size_le : c.size ≤ c.maxKeys

theorem sound_create (chance : Chance) (s : LocalSettings) : (create chance s).Sound where
  valid := Table.valid_empty
  budget_pos := Nat.le_max_right _ _
  size_le := Nat.zero_le _

/-- What only removes keys keeps a cache sound. -/
theorem Sound.of_removeAll {c c' : LocalCache} (h : c.Sound) (gone : List String)
    (htable : c'.table = c.table.removeAll gone) (hmax : c'.maxKeys = c.maxKeys) : c'.Sound where
  valid := by
    rw [htable]
    exact h.valid.removeAll gone
  budget_pos := by
    rw [hmax]
    exact h.budget_pos
  size_le := by
    rw [hmax, size, htable]
    exact Nat.le_trans (Table.size_removeAll_le h.valid gone) h.size_le

theorem Sound.replace {c c' : LocalCache} (h : c.Sound) {key : String} {e : Entry}
    (htable : c'.table = c.table.replace key e) (hmax : c'.maxKeys = c.maxKeys) : c'.Sound where
  valid := by
    rw [htable]
    exact h.valid.replace key e
  budget_pos := by
    rw [hmax]
    exact h.budget_pos
  size_le := by
    rw [hmax, size, htable]
    exact h.size_le

theorem Sound.lookup {c : LocalCache} (h : c.Sound) (now : Nat) (key : String) :
    (c.lookup now key).2.Sound := by
  have hmax := maxKeys_lookup now key c
  rcases table_lookup now key c with htable | ⟨e, htable⟩ | htable
  · exact h.of_removeAll [] htable hmax
  · exact h.replace htable hmax
  · exact h.of_removeAll [key] htable hmax

/-- A newcomer is placed where the budget leaves room for it. -/
theorem Sound.place {c : LocalCache} (h : c.Sound) {key : String}
    (hkey : c.table.get? key = none) (hroom : c.size < c.maxKeys) (now : Nat) (value : String)
    (ttl : Nat) : (place now key value ttl c).2.Sound := by
  unfold LocalCache.place
  split
  · exact h
  · rename_i e _
    exact ⟨h.valid.push hkey e, h.budget_pos, Nat.le_trans (Nat.le_of_eq
      (Table.size_push h.valid key e)) hroom⟩

theorem Sound.makeRoom {c : LocalCache} (h : c.Sound) (now : Nat) (newcomer : String) :
    (c.makeRoom now newcomer).2.Sound := by
  obtain ⟨gone, htable⟩ := exists_table_makeRoom now newcomer c
  exact h.of_removeAll gone htable (maxKeys_makeRoom now newcomer c)

/-- An insertion keeps a cache sound, also where it comes to no end. -/
theorem Sound.insert {c : LocalCache} (h : c.Sound) (now : Nat) (key value : String) (ttl : Nat) :
    (c.insert now key value ttl).2.Sound := by
  unfold LocalCache.insert
  split
  · split
    · exact h
    · exact h.replace rfl rfl
  · rename_i hkey
    split
    · rename_i hfull
      have hpositive : 0 < c.size := Nat.lt_of_lt_of_le h.budget_pos hfull
      have hmade := h.makeRoom now key
      obtain ⟨gone, htable⟩ := exists_table_makeRoom now key c
      split
      · rename_i c' hroom
        rw [hroom] at hmade
        exact hmade.of_removeAll [] rfl rfl
      · rename_i c' hroom
        have hadmitted : (c.makeRoom now key).1 = true := by rw [hroom]
        have hless := size_makeRoom_lt h.valid hpositive now hadmitted
        have hmax := maxKeys_makeRoom now key c
        rw [hroom] at hmade htable hless hmax
        refine hmade.place ?_ ?_ now value ttl
        · rw [htable, Table.get?_removeAll, hkey, ite_self]
        · rw [hmax]
          exact Nat.lt_of_lt_of_le hless h.size_le
    · rename_i hroom
      exact h.place hkey (Nat.lt_of_not_le hroom) now value ttl

/-- Whatever is done to a sound cache, it stays sound. -/
theorem Sound.apply {c : LocalCache} (h : c.Sound) (now : Nat) (a : Action) :
    (a.apply now c).Sound := by
  cases a with
  | insert key value ttl => exact h.insert now key value ttl
  | lookup key => exact h.lookup now key
  | contains key => exact h
  | remove key => exact h.of_removeAll [key] rfl rfl
  | purgeExpired =>
    exact h.of_removeAll _ (table_purgeExpired now c) (maxKeys_purgeExpired now c)
  | clear => exact ⟨Table.valid_empty, h.budget_pos, Nat.zero_le _⟩
  | close => exact ⟨Table.valid_empty, h.budget_pos, Nat.zero_le _⟩
  | notice key => exact h.of_removeAll [key] rfl rfl

/-- No operation changes the budget. -/
theorem maxKeys_apply (now : Nat) (a : Action) (c : LocalCache) :
    (a.apply now c).maxKeys = c.maxKeys := by
  cases a with
  | insert key value ttl => exact maxKeys_insert now key value ttl c
  | lookup key => exact maxKeys_lookup now key c
  | purgeExpired => exact maxKeys_purgeExpired now c
  | contains key => rfl
  | remove key => rfl
  | clear => rfl
  | close => rfl
  | notice key => rfl

variable {chance : Chance} {s : LocalSettings}

theorem Reachable.sound {c : LocalCache} (h : Reachable chance s c) : c.Sound := by
  induction h with
  | create => exact sound_create chance s
  | act now a _ ih => exact ih.apply now a

theorem Reachable.maxKeys_eq {c : LocalCache} (h : Reachable chance s c) :
    c.maxKeys = max s.maxKeys 1 := by
  induction h with
  | create => rfl
  | act now a _ ih => rw [maxKeys_apply, ih]

/-- In every state of a local tier the table is valid and within the budget. So every position that
a removal frees lies within the table, also between the removals of one operation; every position
that a sample draws is taken; and a full cache to which a newcomer comes has fewer keys after that,
or refuses it and keeps its table. -/
theorem Reachable.table_within_budget {c : LocalCache} (h : Reachable chance s c) :
    (c.table.Valid ∧ c.size ≤ max 1 s.maxKeys) ∧
      (∀ (gone : List String) (key : String) (slot : Slot),
        (c.table.removeAll gone).slots[key]? = some slot →
          slot.index < (c.table.removeAll gone).size) ∧
      (c.sample.length = min sampleSize c.size ∧ ∀ i < min sampleSize c.size,
        ∃ key, c.table.keys[c.rolls (c.drawn + i) % c.size]? = some key ∧
          (c.table.get? key).isSome) ∧
      ∀ (now : Nat) (newcomer : String), c.maxKeys ≤ c.size →
        ((c.makeRoom now newcomer).1 = true ∧ (c.makeRoom now newcomer).2.size < c.size) ∨
          ((c.makeRoom now newcomer).1 = false ∧ (c.makeRoom now newcomer).2.table = c.table) := by
  have hsound := h.sound
  refine ⟨⟨hsound.valid, ?_⟩, ?_, ⟨length_sample hsound.valid, ?_⟩, ?_⟩
  · have hsize := hsound.size_le
    rw [h.maxKeys_eq] at hsize
    rw [Nat.max_comm]
    exact hsize
  · intro gone key slot hslot
    exact (hsound.valid.removeAll gone).index_lt hslot
  · intro i hi
    obtain ⟨key, hkey⟩ := exists_key_drawn hsound.valid hi
    refine ⟨key, hkey, ?_⟩
    rw [← Table.mem_slots_iff, ← hsound.valid.mem_iff]
    exact ⟨_, hkey⟩
  · intro now newcomer hfull
    have hpositive : 0 < c.size := Nat.lt_of_lt_of_le hsound.budget_pos hfull
    cases hroom : (c.makeRoom now newcomer).1 with
    | true => exact Or.inl ⟨rfl, size_makeRoom_lt hsound.valid hpositive now hroom⟩
    | false => exact Or.inr ⟨rfl, table_makeRoom_of_refused hroom⟩

/-- Three newcomers come to a cache configured without a budget: the second takes the place of the
first, and the third would expire beyond the clock, when room has already been made. -/
theorem table_within_budget_of_three_newcomers :
    let chance : Chance := ⟨fun _ ↦ 0, fun i ↦ i⟩
    let s : LocalSettings := ⟨0, .random, 10⟩
    let second := (create chance s).insert 0 "a" "1" 0 |>.2.insert 1 "b" "2" 0 |>.2
    let third := second.insert 2 "c" "3" Clock.limit
    Reachable chance s third.2 ∧ third.1 = .overflow ∧ second.size = 1 ∧ third.2.size ≤ 1 := by
  intro chance s second third
  have hreachable : Reachable chance s third.2 :=
    ((Reachable.create.act 0 (.insert "a" "1" 0)).act 1 (.insert "b" "2" 0)).act 2
      (.insert "c" "3" Clock.limit)
  exact ⟨hreachable, by decide, by decide, hreachable.table_within_budget.1.2⟩

end LocalCache

end TwoTier
