import TwoTier.Proofs.Local.Admission

/-!
# The counters of a local tier balance

Whoever uses a local tier can keep an account of it: how many look-ups were made, how many
insertions came to an end, how many removals found their key, and how many entries a clearing or a
closing dropped (`LocalCache.Account`). Each operation moves the counters by what it adds to the
account, and the number of resident keys by what it counts (`LocalCache.Moved`, one lemma for each
operation); so the two balance after every run (`LocalCache.Audit.balances`).

That a purge removes exactly what has expired, and answers and counts how much that was, is
`LocalCache.purgeExpired_exactly`.
-/

set_option autoImplicit false
set_option relaxedAutoImplicit false

namespace TwoTier

/-! ### The expired keys of a table -/

namespace Table

theorem nodup_expiredKeys (t : Table) (now : Nat) : (t.expiredKeys now).Nodup :=
  Std.ExtTreeMap.nodup_keys

theorem mem_expiredKeys_iff (t : Table) (now : Nat) (key : String) :
    key ∈ t.expiredKeys now ↔ ∃ e, t.get? key = some e ∧ e.expired now = true := by
  rw [expiredKeys, Std.ExtTreeMap.mem_keys, Dict.mem_iff_exists]
  simp only [Std.ExtTreeMap.getElem?_filter', Option.filter_eq_some_iff]
  constructor
  · rintro ⟨slot, hslot, hexpired⟩
    exact ⟨slot.entry, by rw [get?, hslot]; rfl, hexpired⟩
  · rintro ⟨e, he, hexpired⟩
    obtain ⟨slot, hslot, rfl⟩ := Option.map_eq_some_iff.mp he
    exact ⟨slot, hslot, hexpired⟩

end Table

namespace LocalCache

/-- A purge removes exactly the entries that have expired, answers how many there were and counts
them; no other entry, and no other counter, changes. -/
theorem purgeExpired_exactly {c : LocalCache} (h : c.table.Valid) (now : Nat) :
    ∃ gone : List String, gone.Nodup ∧
      (∀ key, key ∈ gone ↔ ∃ e, c.table.get? key = some e ∧ e.expired now = true) ∧
      (c.purgeExpired now).1 = gone.length ∧
      (∀ key, (c.purgeExpired now).2.table.get? key =
        if key ∈ gone then none else c.table.get? key) ∧
      (c.purgeExpired now).2.size + gone.length = c.size ∧
      (c.purgeExpired now).2.counters =
        { c.counters with expired := c.counters.expired + gone.length } := by
  have hpurge : (c.purgeExpired now).2 = c.expire (c.table.expiredKeys now) := rfl
  refine ⟨c.table.expiredKeys now, c.table.nodup_expiredKeys now, c.table.mem_expiredKeys_iff now,
    rfl, fun key ↦ ?_, ?_, ?_⟩
  · rw [hpurge, expire_eq]
    exact Table.get?_removeAll _ _ key
  · rw [hpurge, expire_eq]
    refine size_removeAll h (c.table.nodup_expiredKeys now) fun key hkey ↦ ?_
    obtain ⟨e, he, -⟩ := (c.table.mem_expiredKeys_iff now key).mp hkey
    rw [he]
    rfl
  · rw [hpurge, expire_eq]

/-! ### The account of a run -/

/-- What was done to a local tier, as those who use it can count it. -/
structure Account where
  /-- The look-ups. -/
  lookups : Nat
  /-- The insertions that came to an end. -/
  insertions : Nat
  /-- The removals that found their key, those by notices included. -/
  removals : Nat
  /-- The entries that were dropped because the tier was cleared or closed. -/
  cleared : Nat
  deriving DecidableEq, Repr

namespace Account

/-- Nothing was done. -/
def zero : Account := ⟨0, 0, 0, 0⟩

/-- What two accounts say together. -/
def add (a b : Account) : Account :=
  ⟨a.lookups + b.lookups, a.insertions + b.insertions, a.removals + b.removals,
    a.cleared + b.cleared⟩

end Account

/-- What something that is done to a cache adds to its account. -/
def Action.account (now : Nat) (c : LocalCache) : Action → Account
  | insert key value ttl =>
    { Account.zero with insertions := if (c.insert now key value ttl).1 = .overflow then 0 else 1 }
  | lookup _ => { Account.zero with lookups := 1 }
  | contains _ | purgeExpired => .zero
  | remove key | notice key => { Account.zero with removals := (c.remove key).1.toNat }
  | clear | close => { Account.zero with cleared := c.size }

/-- The runs of a local tier with some settings, each with its account: anything is done to the
cache, at any moments and whatever is drawn. -/
inductive Audit (chance : Chance) (s : LocalSettings) : Account → LocalCache → Prop
  | create : Audit chance s .zero (create chance s)
  | act {a : Account} {c : LocalCache} (h : Audit chance s a c) (now : Nat) (action : Action) :
      Audit chance s (a.add (action.account now c)) (action.apply now c)

/-! ### What each operation counts -/

/-- The counters have moved by what an account says, and the number of resident keys by what they
count besides. -/
structure Moved (c c' : LocalCache) (a : Account) : Prop where
  lookups : c'.counters.hits + c'.counters.misses =
    c.counters.hits + c.counters.misses + a.lookups
  insertions : c'.counters.added + c'.counters.updated + c'.counters.rejected =
    c.counters.added + c.counters.updated + c.counters.rejected + a.insertions
  residents : c'.size + c'.counters.evicted + c'.counters.expired + a.removals + a.cleared +
      c.counters.added =
    c.size + c.counters.evicted + c.counters.expired + c'.counters.added

theorem Moved.refl (c : LocalCache) : Moved c c .zero := ⟨rfl, rfl, rfl⟩

/-- What is moved in two steps, where only the second is an operation of its own. -/
theorem Moved.trans {c c' c'' : LocalCache} {a : Account} (h : Moved c c' .zero)
    (h' : Moved c' c'' a) : Moved c c'' a := by
  obtain ⟨hlookups, hinsertions, hresidents⟩ := h
  obtain ⟨hlookups', hinsertions', hresidents'⟩ := h'
  simp only [Account.zero] at *
  exact ⟨by omega, by omega, by omega⟩

@[simp] theorem counters_record (c : LocalCache) (e : Event) :
    (c.record e).counters = c.counters.record e := rfl

@[simp] theorem counters_drop (c : LocalCache) (key : String) :
    (c.drop key).counters = c.counters := rfl

@[simp] theorem size_record (c : LocalCache) (e : Event) : (c.record e).size = c.size := rfl

/-- A key that leaves makes room for one, where it was resident. -/
theorem size_drop {c : LocalCache} (h : c.table.Valid) (key : String) :
    (c.drop key).size + (c.table.get? key).isSome.toNat = c.size := by
  cases hkey : c.table.get? key with
  | none =>
    rw [drop, size, Table.remove_of_get?_eq_none hkey]
    rfl
  | some e =>
    have hresident : ∀ k ∈ [key], (c.table.get? k).isSome := by simp [hkey]
    exact size_removeAll h (by simp) hresident

/-- Room is made by keys that are counted, as expired or as evicted. -/
theorem moved_makeRoom {c : LocalCache} (h : c.table.Valid) (hsize : 0 < c.size) (now : Nat)
    (newcomer : String) : Moved c (c.makeRoom now newcomer).2 .zero := by
  by_cases hstale : ∃ k ∈ c.sample, c.stale now k = true
  · obtain ⟨gone, -, -, hgone, hroom⟩ := makeRoom_of_stale h hstale newcomer
    have hcounters : (c.sampled.expire gone).counters =
        { c.counters with expired := c.counters.expired + gone.length } := by
      rw [expire_eq]
      rfl
    rw [hroom]
    refine ⟨?_, ?_, ?_⟩ <;> simp only [hcounters, Account.zero] <;> omega
  · have hfresh : ∀ k ∈ c.sample, ¬ c.stale now k = true := fun k hk hs ↦ hstale ⟨k, hk, hs⟩
    obtain ⟨v, hv, hvictim, -⟩ := exists_least_victim (c := c.sampled) (sample_ne_nil h hsize)
      fun k hk ↦ isSome_get?_of_mem_sample h hk
    rw [makeRoom_of_fresh hfresh newcomer hvictim]
    split
    · exact ⟨rfl, rfl, rfl⟩
    · have hdrop : (c.sampled.drop v).size + (c.table.get? v).isSome.toNat = c.size :=
        size_drop (c := c.sampled) h v
      rw [isSome_get?_of_mem_sample h hv, Bool.toNat_true] at hdrop
      have hcounters : c.sampled.counters = c.counters := rfl
      refine ⟨rfl, rfl, ?_⟩
      simp only [counters_record, counters_drop, size_record, hcounters, Counters.record,
        Account.zero]
      omega

/-- A newcomer takes a place, or comes to no end. -/
theorem moved_place {c : LocalCache} (h : c.table.Valid) (now : Nat) (key value : String)
    (ttl : Nat) : Moved c (place now key value ttl c).2
      { Account.zero with
        insertions := if (place now key value ttl c).1 = .overflow then 0 else 1 } := by
  unfold place
  split
  · exact Moved.refl c
  · rename_i e _
    have hpush : size { c with table := c.table.push key e } = c.size + 1 :=
      Table.size_push h key e
    refine ⟨rfl, ?_, ?_⟩
    · simp only [counters_record, Counters.record, reduceCtorEq, if_false]
      omega
    · simp only [counters_record, size_record, hpush, Counters.record, Account.zero]
      omega

/-- An insertion that comes to an end is counted once, as added, updated or rejected. -/
theorem moved_insert {c : LocalCache} (h : c.Sound) (now : Nat) (key value : String) (ttl : Nat) :
    Moved c (insert now key value ttl c).2
      { Account.zero with
        insertions := if (insert now key value ttl c).1 = .overflow then 0 else 1 } := by
  unfold insert
  split
  · split
    · exact Moved.refl c
    · refine ⟨rfl, ?_, rfl⟩
      simp only [counters_record, Counters.record, reduceCtorEq, if_false]
      omega
  · split
    · rename_i hfull
      have hmoved := moved_makeRoom h.valid (Nat.lt_of_lt_of_le h.budget_pos hfull) now key
      have hsound := h.makeRoom now key
      split
      · rename_i c' hroom
        rw [hroom] at hmoved
        refine hmoved.trans ⟨rfl, ?_, rfl⟩
        simp only [counters_record, Counters.record, reduceCtorEq, if_false]
        omega
      · rename_i c' hroom
        rw [hroom] at hmoved hsound
        exact hmoved.trans (moved_place hsound.valid now key value ttl)
    · exact moved_place h.valid now key value ttl

/-- A removal is counted by its answer, whoever asked for it. -/
theorem moved_drop {c : LocalCache} (h : c.table.Valid) (key : String) :
    Moved c (c.drop key) { Account.zero with removals := (c.remove key).1.toNat } := by
  have hsize := size_drop h key
  refine ⟨rfl, rfl, ?_⟩
  simp only [counters_drop, remove, Account.zero]
  omega

/-- A look-up is counted once, as a hit or as a miss, and an expired entry that it meets besides. -/
theorem moved_lookup {c : LocalCache} (h : c.table.Valid) (now : Nat) (key : String) :
    Moved c (lookup now key c).2 { Account.zero with lookups := 1 } := by
  have hcounters : (c.note key).counters = c.counters := by
    unfold note
    split <;> rfl
  have hsize : (c.note key).size = c.size := congrArg Table.size (table_note c key)
  have hnoted : Moved c (c.note key) .zero := by
    refine ⟨?_, ?_, ?_⟩ <;> simp only [hcounters, hsize, Account.zero] <;> omega
  refine hnoted.trans ?_
  simp only [lookup]
  split
  · refine ⟨?_, rfl, rfl⟩
    simp only [counters_record, Counters.record]
    omega
  · rename_i e hkey
    split
    · refine ⟨?_, rfl, rfl⟩
      simp only [counters_record, Counters.record]
      omega
    · have hvalid : (c.note key).table.Valid := by
        rw [table_note]
        exact h
      have hdrop := size_drop hvalid key
      rw [hkey, Option.isSome_some, Bool.toNat_true] at hdrop
      refine ⟨?_, rfl, ?_⟩
      · simp only [counters_record, counters_drop, Counters.record]
        omega
      · simp only [counters_record, counters_drop, size_record, Counters.record, Account.zero]
        omega

theorem moved_purgeExpired {c : LocalCache} (h : c.table.Valid) (now : Nat) :
    Moved c (c.purgeExpired now).2 .zero := by
  obtain ⟨gone, -, -, -, -, hsize, hcounters⟩ := purgeExpired_exactly h now
  refine ⟨?_, ?_, ?_⟩ <;> simp only [hcounters, Account.zero] <;> omega

/-- What empties a cache drops all its entries and counts nothing. -/
theorem moved_of_empty {c c' : LocalCache} (hsize : c'.size = 0)
    (hcounters : c'.counters = c.counters) :
    Moved c c' { Account.zero with cleared := c.size } := by
  refine ⟨?_, ?_, ?_⟩ <;> simp only [hcounters, hsize, Account.zero] <;> omega

/-- Whatever is done to a sound cache moves its counters by what its account says. -/
theorem moved_apply {c : LocalCache} (h : c.Sound) (now : Nat) (action : Action) :
    Moved c (action.apply now c) (action.account now c) := by
  cases action with
  | insert key value ttl => exact moved_insert h now key value ttl
  | lookup key => exact moved_lookup h.valid now key
  | contains key => exact Moved.refl c
  | remove key => exact moved_drop h.valid key
  | purgeExpired => exact moved_purgeExpired h.valid now
  | clear => exact moved_of_empty rfl rfl
  | close => exact moved_of_empty rfl rfl
  | notice key => exact moved_drop h.valid key

/-! ### The balance of a run -/

variable {chance : Chance} {s : LocalSettings}

theorem Audit.reachable {a : Account} {c : LocalCache} (h : Audit chance s a c) :
    Reachable chance s c := by
  induction h with
  | create => exact .create
  | act _ now action ih => exact ih.act now action

/-- The counters of a cache and the number of its keys, as an account of all that was done to it
says. -/
structure Balances (c : LocalCache) (a : Account) : Prop where
  lookups : c.counters.hits + c.counters.misses = a.lookups
  insertions : c.counters.added + c.counters.updated + c.counters.rejected = a.insertions
  residents :
    c.size + c.counters.evicted + c.counters.expired + a.removals + a.cleared = c.counters.added

theorem Balances.moved {c c' : LocalCache} {a b : Account} (h : c.Balances a)
    (hmoved : Moved c c' b) : c'.Balances (a.add b) := by
  obtain ⟨hlookups, hinsertions, hresidents⟩ := h
  obtain ⟨hlookups', hinsertions', hresidents'⟩ := hmoved
  refine ⟨?_, ?_, ?_⟩ <;> simp only [Account.add] <;> omega

/-- After every run of a local tier, its counters and its size balance with what was done to it:
every look-up was a hit or a miss, every insertion that came to an end was counted as added, updated
or rejected, and every key that was added is still resident or was counted when it left, once. What
a purge does at any moment then is to remove exactly what has expired, to answer how much that was,
and to count it. -/
theorem Audit.balances {a : Account} {c : LocalCache} (h : Audit chance s a c) :
    c.Balances a ∧ ∀ now, ∃ gone : List String, gone.Nodup ∧
      (∀ key, key ∈ gone ↔ ∃ e, c.table.get? key = some e ∧ e.expired now = true) ∧
      (c.purgeExpired now).1 = gone.length ∧
      (∀ key, (c.purgeExpired now).2.table.get? key =
        if key ∈ gone then none else c.table.get? key) ∧
      (c.purgeExpired now).2.size + gone.length = c.size ∧
      (c.purgeExpired now).2.counters =
        { c.counters with expired := c.counters.expired + gone.length } := by
  refine ⟨?_, purgeExpired_exactly h.reachable.sound.valid⟩
  induction h with
  | create => exact ⟨rfl, rfl, rfl⟩
  | act h now action ih => exact ih.moved (moved_apply h.reachable.sound now action)

/-- A cache for two keys is filled and read. It finds one of them expired when a third comes, evicts
the other for a fourth, loses the third to a notice, and is closed. -/
theorem balances_of_mixed_run :
    let chance : Chance := ⟨fun _ ↦ 0, fun _ ↦ 0⟩
    let s : LocalSettings := ⟨2, .popularity, 10⟩
    let deeds : List (Nat × Action) :=
      [(0, .insert "a" "1" 5), (1, .insert "b" "2" 0), (2, .lookup "b"), (3, .lookup "b"),
        (9, .insert "c" "3" 0), (10, .insert "d" "4" 0), (11, .notice "c"), (12, .close)]
    let c := deeds.foldl (fun c deed ↦ deed.2.apply deed.1 c) (create chance s)
    Audit chance s ⟨2, 4, 1, 1⟩ c ∧ c.Balances ⟨2, 4, 1, 1⟩ ∧ c.size = 0 ∧
      c.counters = ⟨2, 0, 4, 0, 1, 0, 1, 0⟩ := by
  intro chance s deeds c
  have hread := ((((@Audit.create chance s).act 0 (.insert "a" "1" 5)).act 1
    (.insert "b" "2" 0)).act 2 (.lookup "b")).act 3 (.lookup "b")
  have hclosed := (((hread.act 9 (.insert "c" "3" 0)).act 10 (.insert "d" "4" 0)).act 11
    (.notice "c")).act 12 .close
  have haudit : Audit chance s ⟨2, 4, 1, 1⟩ c :=
    Eq.subst (motive := fun a ↦ Audit chance s a c) (by decide +kernel) hclosed
  exact ⟨haudit, haudit.balances.1, by decide, by decide +kernel⟩

end LocalCache

end TwoTier
