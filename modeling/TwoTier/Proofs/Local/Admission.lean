import TwoTier.Proofs.Local.Budget

/-!
# Whom a full cache admits and whom it removes

A newcomer to a full cache meets a random sample of the resident keys. The expired keys of the
sample are reclaimed, each once, however often the sample repeats it (`LocalCache.exists_reclaim`);
where there is none, the victim is a key of the sample, under the popularity policy one of least
rank (`LocalCache.exists_least_victim`). So the newcomer is refused exactly where the sample is
fresh and every key of it was asked for more often (`LocalCache.makeRoom_of_fresh`).

The main result, `LocalCache.insert_into_full`, says this of an insertion into a full cache, for
every outcome of the draws.
-/

set_option autoImplicit false
set_option relaxedAutoImplicit false

namespace TwoTier

/-! ### Ranks -/

namespace Rank

theorem below_iff (a b : Rank) :
    a.below b = true ↔ a.estimate < b.estimate ∨ (a.estimate = b.estimate ∧
      (a.frequency < b.frequency ∨ (a.frequency = b.frequency ∧ a.lastAccess < b.lastAccess))) := by
  simp [below]

theorem not_below_self (a : Rank) : ¬ a.below a := by
  rw [below_iff]
  omega

theorem not_below_of_below {a b : Rank} (h : a.below b) : ¬ b.below a := by
  rw [below_iff] at *
  omega

theorem not_below_trans {a b c : Rank} (hab : ¬ a.below b) (hbc : ¬ b.below c) : ¬ a.below c := by
  rw [below_iff] at *
  omega

/-- A rank that is not above another has no greater estimate. -/
theorem estimate_le_of_not_below {a b : Rank} (h : ¬ b.below a) : a.estimate ≤ b.estimate := by
  rw [below_iff] at h
  omega

end Rank

namespace LocalCache

/-! ### Keys that are removed as expired -/

/-- Whether a key is resident and its entry has expired. -/
def stale (now : Nat) (c : LocalCache) (key : String) : Bool :=
  (c.table.get? key).any fun e ↦ e.expired now

/-- The cache after some keys were removed as expired. -/
def expire (gone : List String) (c : LocalCache) : LocalCache :=
  gone.foldl (fun c key ↦ (c.drop key).record .expired) c

@[simp] theorem expire_nil (c : LocalCache) : c.expire [] = c := rfl

@[simp] theorem expire_cons (key : String) (gone : List String) (c : LocalCache) :
    c.expire (key :: gone) = ((c.drop key).record .expired).expire gone := rfl

/-- Whatever is removed as expired is counted so, and nothing else of the cache changes. -/
theorem expire_eq (gone : List String) (c : LocalCache) :
    c.expire gone =
      { c with
        table := c.table.removeAll gone
        counters := { c.counters with expired := c.counters.expired + gone.length } } := by
  induction gone generalizing c with
  | nil => rfl
  | cons key gone ih =>
    rw [expire_cons, ih]
    simp only [drop, record, Counters.record, Table.removeAll_cons, List.length_cons,
      Nat.add_assoc, Nat.add_comm 1]

theorem stale_drop (now : Nat) (c : LocalCache) (key j : String) :
    ((c.drop key).record .expired).stale now j = (decide (j ≠ key) && c.stale now j) := by
  unfold stale
  rw [table_record, table_drop, Table.get?_remove]
  split_ifs with hj <;> simp [hj]

theorem isSome_get?_of_stale {now : Nat} {c : LocalCache} {key : String}
    (h : c.stale now key = true) : (c.table.get? key).isSome := by
  unfold stale at h
  cases hkey : c.table.get? key with
  | none =>
    rw [hkey] at h
    exact absurd h Bool.false_ne_true
  | some e => rfl

/-- The number of keys that distinct residents leave behind. -/
theorem size_removeAll {t : Table} (h : t.Valid) {gone : List String} (hnodup : gone.Nodup)
    (hresident : ∀ key ∈ gone, (t.get? key).isSome) :
    (t.removeAll gone).size + gone.length = t.size := by
  induction gone generalizing t with
  | nil => rfl
  | cons key gone ih =>
    obtain ⟨hkey, hgone⟩ := List.nodup_cons.mp hnodup
    have hself := hresident key List.mem_cons_self
    have hpositive : 0 < t.size := by
      obtain ⟨slot, hslot⟩ := (Dict.mem_iff_exists _ _).mp ((Table.mem_slots_iff t key).mpr hself)
      exact Nat.zero_lt_of_lt (h.index_lt hslot)
    have hrest : ∀ j ∈ gone, ((t.remove key).get? j).isSome := by
      intro j hj
      rw [Table.get?_remove, if_neg fun heq : j = key ↦ hkey (heq ▸ hj)]
      exact hresident j (List.mem_cons_of_mem key hj)
    have hsize := ih (h.remove key) hgone hrest
    rw [Table.size_remove h hself] at hsize
    rw [Table.removeAll_cons, List.length_cons]
    omega

theorem reclaim_cons (now : Nat) (key : String) (rest : List String) (c : LocalCache) :
    reclaim now (key :: rest) c =
      if c.stale now key then reclaim now rest ((c.drop key).record .expired)
      else reclaim now rest c := by
  rw [reclaim, stale]
  cases c.table.get? key with
  | none => rfl
  | some e =>
    simp only [Option.any_some, Entry.expired, Expiry.expired, Entry.live]
    by_cases hlive : e.expiry.live now = true <;> simp [hlive]

/-- A reclamation removes the distinct keys of those it looks at that have expired, each once. -/
theorem exists_reclaim (now : Nat) (keys : List String) (c : LocalCache) :
    ∃ gone : List String, gone.Nodup ∧ (∀ k, k ∈ gone ↔ k ∈ keys ∧ c.stale now k = true) ∧
      reclaim now keys c = c.expire gone := by
  induction keys generalizing c with
  | nil => exact ⟨[], List.nodup_nil, by simp, rfl⟩
  | cons key rest ih =>
    by_cases hstale : c.stale now key = true
    · -- the key is removed here, so that a repetition of it finds nothing
      obtain ⟨gone, hnodup, hmem, hreclaim⟩ := ih ((c.drop key).record .expired)
      refine ⟨key :: gone, List.nodup_cons.mpr ⟨?_, hnodup⟩, fun k ↦ ?_, ?_⟩
      · rw [hmem, stale_drop]
        simp
      · rw [List.mem_cons, List.mem_cons, hmem, stale_drop]
        by_cases hk : k = key <;> simp [hk, hstale]
      · rw [reclaim_cons, if_pos hstale, expire_cons, hreclaim]
    · obtain ⟨gone, hnodup, hmem, hreclaim⟩ := ih c
      refine ⟨gone, hnodup, fun k ↦ ?_, ?_⟩
      · rw [hmem, List.mem_cons]
        by_cases hk : k = key <;> simp [hk, hstale]
      · rw [reclaim_cons, if_neg hstale, hreclaim]

/-! ### The victim -/

/-- No key that was looked at lies below the one found to be coldest. -/
theorem least_coldest {c : LocalCache} {best : Option (Rank × String)} {keys : List String}
    {v : String} (h : c.coldest best keys = some v)
    (hbest : ∀ r k, best = some (r, k) → c.rank? k = some r) :
    ∃ least, c.rank? v = some least ∧
      (∀ k ∈ keys, ∀ r, c.rank? k = some r → ¬ r.below least) ∧
      ∀ r k, best = some (r, k) → ¬ r.below least := by
  induction keys generalizing best with
  | nil =>
    obtain ⟨⟨r, k⟩, rfl, rfl⟩ := Option.map_eq_some_iff.mp h
    refine ⟨r, hbest r k rfl, by simp, fun r' k' heq ↦ ?_⟩
    obtain ⟨rfl, rfl⟩ := Prod.mk.inj (Option.some.inj heq)
    exact Rank.not_below_self r
  | cons key rest ih =>
    unfold coldest at h
    split at h
    · rename_i hrank
      obtain ⟨least, hv, hrest, hfirst⟩ := ih h hbest
      refine ⟨least, hv, List.forall_mem_cons.mpr ⟨fun r hr ↦ ?_, hrest⟩, hfirst⟩
      rw [hrank] at hr
      exact absurd hr (Option.some_ne_none r).symm
    · rename_i r hrank
      obtain ⟨least, hv, hrest, hfirst⟩ := ih h fun r' k' heq ↦ by
        obtain ⟨rfl, rfl⟩ := Prod.mk.inj (Option.some.inj heq)
        exact hrank
      refine ⟨least, hv, List.forall_mem_cons.mpr ⟨fun r' hr' ↦ ?_, hrest⟩, fun r' k' heq ↦
        absurd heq (by simp)⟩
      rw [hrank] at hr'
      exact Option.some.inj hr' ▸ hfirst r key rfl
    · rename_i r b k hrank
      split at h
      · rename_i hbelow
        obtain ⟨least, hv, hrest, hfirst⟩ := ih h fun r' k' heq ↦ by
          obtain ⟨rfl, rfl⟩ := Prod.mk.inj (Option.some.inj heq)
          exact hrank
        have hleast := hfirst r key rfl
        refine ⟨least, hv, List.forall_mem_cons.mpr ⟨fun r' hr' ↦ ?_, hrest⟩, fun r' k' heq ↦ ?_⟩
        · rw [hrank] at hr'
          exact Option.some.inj hr' ▸ hleast
        · obtain ⟨rfl, rfl⟩ := Prod.mk.inj (Option.some.inj heq)
          exact Rank.not_below_trans (Rank.not_below_of_below hbelow) hleast
      · rename_i hbelow
        obtain ⟨least, hv, hrest, hfirst⟩ := ih h hbest
        have hleast := hfirst b k rfl
        refine ⟨least, hv, List.forall_mem_cons.mpr ⟨fun r' hr' ↦ ?_, hrest⟩, hfirst⟩
        rw [hrank] at hr'
        exact Option.some.inj hr' ▸ Rank.not_below_trans hbelow hleast

/-- A victim is found among keys that are resident, and under the popularity policy none of them
lies below it. -/
theorem exists_least_victim {c : LocalCache} {keys : List String} (hne : keys ≠ [])
    (hkeys : ∀ k ∈ keys, (c.table.get? k).isSome) :
    ∃ v ∈ keys, c.victim keys = some v ∧
      (c.policy = .popularity → ∃ least, c.rank? v = some least ∧
        ∀ k ∈ keys, ∀ r, c.rank? k = some r → ¬ r.below least) := by
  obtain ⟨v, hv⟩ := exists_victim hne hkeys
  refine ⟨v, mem_of_victim hv, hv, fun hpolicy ↦ ?_⟩
  unfold victim at hv
  rw [hpolicy] at hv
  obtain ⟨least, hrank, hleast, -⟩ := least_coldest hv (by simp)
  exact ⟨least, hrank, hleast⟩

/-- The least rank has the least estimate. -/
theorem estimate_le_of_least {c : LocalCache} {keys : List String} {v : String} {least : Rank}
    (hrank : c.rank? v = some least)
    (hleast : ∀ k ∈ keys, ∀ r, c.rank? k = some r → ¬ r.below least) {k : String}
    (hk : k ∈ keys) (hresident : (c.table.get? k).isSome) :
    c.sketch.estimate v ≤ c.sketch.estimate k := by
  obtain ⟨e, he⟩ := Option.isSome_iff_exists.mp hresident
  obtain ⟨e', -, rfl⟩ := Option.map_eq_some_iff.mp hrank
  have hr : c.rank? k = some ⟨c.sketch.estimate k, e.frequency, e.lastAccess⟩ := by
    rw [rank?, he]
    rfl
  exact Rank.estimate_le_of_not_below (hleast k hk _ hr)

/-! ### Room for a newcomer -/

/-- The cache after it drew a sample. -/
def sampled (c : LocalCache) : LocalCache := { c with drawn := c.drawn + c.sample.length }

theorem makeRoom_eq (now : Nat) (newcomer : String) (c : LocalCache) :
    c.makeRoom now newcomer =
      if (reclaim now c.sample c.sampled).size < c.size then
        (true, reclaim now c.sample c.sampled)
      else
        match c.sampled.victim c.sample with
        | none => (true, c.sampled)
        | some v =>
          if c.policy.admits && decide (c.sketch.estimate newcomer < c.sketch.estimate v) then
            (false, c.sampled)
          else (true, (c.sampled.drop v).record .evicted) := rfl

/-- Where a sample holds expired keys, these make room. -/
theorem makeRoom_of_stale {c : LocalCache} (h : c.table.Valid) {now : Nat}
    (hstale : ∃ k ∈ c.sample, c.stale now k = true) (newcomer : String) :
    ∃ gone : List String, gone.Nodup ∧ (∀ k, k ∈ gone ↔ k ∈ c.sample ∧ c.stale now k = true) ∧
      (c.sampled.expire gone).size + gone.length = c.size ∧
      c.makeRoom now newcomer = (true, c.sampled.expire gone) := by
  obtain ⟨gone, hnodup, hmem, hreclaim⟩ := exists_reclaim now c.sample c.sampled
  obtain ⟨k, hk⟩ := hstale
  have hpositive : 0 < gone.length := List.length_pos_of_mem ((hmem k).mpr hk)
  have hsize : (c.sampled.expire gone).size + gone.length = c.size := by
    rw [expire_eq]
    exact size_removeAll h hnodup fun j hj ↦ isSome_get?_of_stale ((hmem j).mp hj).2
  have hless : (c.sampled.expire gone).size < c.size := by omega
  refine ⟨gone, hnodup, hmem, hsize, ?_⟩
  rw [makeRoom_eq, hreclaim, if_pos hless]

/-- Where a sample holds no expired key, its victim leaves, unless the newcomer is refused. -/
theorem makeRoom_of_fresh {c : LocalCache} {now : Nat}
    (hfresh : ∀ k ∈ c.sample, ¬ c.stale now k = true) (newcomer : String) {v : String}
    (hv : c.sampled.victim c.sample = some v) :
    c.makeRoom now newcomer =
      if c.policy = .popularity ∧ c.sketch.estimate newcomer < c.sketch.estimate v then
        (false, c.sampled)
      else (true, (c.sampled.drop v).record .evicted) := by
  obtain ⟨gone, -, hmem, hreclaim⟩ := exists_reclaim now c.sample c.sampled
  have hgone : gone = [] := List.eq_nil_iff_forall_not_mem.mpr fun k hk ↦
    hfresh k ((hmem k).mp hk).1 ((hmem k).mp hk).2
  rw [hgone, expire_nil] at hreclaim
  have hsame : ¬ c.sampled.size < c.size := Nat.lt_irrefl c.size
  rw [makeRoom_eq, hreclaim, if_neg hsame]
  simp only [hv]
  cases c.policy with
  | popularity => simp [Policy.admits]
  | random => simp [Policy.admits]

/-! ### Insertion into a full cache -/

/-- A newcomer for which there is a place takes it. -/
theorem place_of_after {now ttl : Nat} {x : Expiry} (hx : Expiry.after now ttl = some x)
    (key value : String) (c : LocalCache) :
    place now key value ttl c =
      (.added, ({ c with table := c.table.push key ⟨value, x, 0, now⟩ }).record .added) := by
  simp only [place, Entry.create?, hx, Option.map_some]

/-- An insertion of a newcomer into a full cache, by the room that is made for it. -/
theorem insert_of_full {c : LocalCache} (hfull : c.maxKeys ≤ c.size) {key : String}
    (hkey : c.table.get? key = none) {now ttl : Nat} {x : Expiry}
    (hx : Expiry.after now ttl = some x) (value : String) :
    insert now key value ttl c =
      if (c.makeRoom now key).1 then
        (.added, ({ (c.makeRoom now key).2 with
          table := (c.makeRoom now key).2.table.push key ⟨value, x, 0, now⟩ }).record .added)
      else (.rejected, (c.makeRoom now key).2.record .rejected) := by
  unfold insert
  simp only [hkey, if_pos hfull]
  obtain ⟨admitted, c'⟩ := c.makeRoom now key
  cases admitted with
  | false => rfl
  | true => simp only [place_of_after hx, if_true]

/-- What an admitted newcomer leaves: its own entry, all others but those of the keys that made room
for it, and the popularity of every key as it was. -/
structure Admitted (c : LocalCache) (key : String) (e : Entry) (gone : List String)
    (c' : LocalCache) : Prop where
  nodup : gone.Nodup
  newcomer : c'.table.get? key = some e
  others : ∀ j ≠ key, c'.table.get? j = if j ∈ gone then none else c.table.get? j
  size_add : c'.size + gone.length = c.size + 1
  sketch_eq : c'.sketch = c.sketch

/-- A newcomer is admitted by removing keys and putting it in their place. -/
theorem admitted_of_removeAll {c made : LocalCache} (h : c.table.Valid) {gone : List String}
    (hnodup : gone.Nodup) (htable : made.table = c.table.removeAll gone)
    (hsize : made.size + gone.length = c.size) (hsketch : made.sketch = c.sketch)
    (key : String) (e : Entry) :
    Admitted c key e gone (({ made with table := made.table.push key e }).record .added) where
  nodup := hnodup
  newcomer := by simp
  others j hj := by simp [hj, htable]
  size_add := by
    have hvalid : made.table.Valid := by
      rw [htable]
      exact h.removeAll gone
    have hpush : (({ made with table := made.table.push key e }).record .added).size =
        made.size + 1 := Table.size_push hvalid key e
    omega
  sketch_eq := hsketch

/-- Whether a full cache refuses a newcomer: the popularity policy rules, no key of the sample has
expired, and all of them were asked for more often than the newcomer. -/
def Refuses (now : Nat) (key : String) (c : LocalCache) : Prop :=
  c.policy = .popularity ∧ (∀ k ∈ c.sample, ¬ c.stale now k = true) ∧
    ∀ k ∈ c.sample, c.sketch.estimate key < c.sketch.estimate k

/-- Whether no key of a sample lies below a key under the popularity policy. -/
def Least (c : LocalCache) (v : String) : Prop :=
  c.policy = .popularity → ∃ least, c.rank? v = some least ∧
    ∀ k ∈ c.sample, ∀ rank, c.rank? k = some rank → ¬ rank.below least

/-- Comparing a newcomer with the victim compares it with all of the sample, for the victim's
estimate is the least. -/
theorem refuses_iff_of_least {c : LocalCache} (h : c.table.Valid) {now : Nat}
    (hfresh : ∀ k ∈ c.sample, ¬ c.stale now k = true) {v : String} (hv : v ∈ c.sample)
    (hleast : c.Least v) (key : String) :
    Refuses now key c ↔
      c.policy = .popularity ∧ c.sketch.estimate key < c.sketch.estimate v := by
  constructor
  · rintro ⟨hpolicy, -, hall⟩
    exact ⟨hpolicy, hall v hv⟩
  · rintro ⟨hpolicy, hless⟩
    obtain ⟨least, hrank, hall⟩ := hleast hpolicy
    exact ⟨hpolicy, hfresh, fun k hk ↦ Nat.lt_of_lt_of_le hless
      (estimate_le_of_least hrank hall hk (isSome_get?_of_mem_sample h hk))⟩

section Full

variable {c : LocalCache} (h : c.Sound) (hfull : c.size = c.maxKeys) {key : String}
  (hkey : c.table.get? key = none) {now ttl : Nat} {x : Expiry}
  (hx : Expiry.after now ttl = some x) (value : String)

include h hfull hkey hx

/-- A newcomer whose sample holds expired keys takes their place. -/
theorem insert_of_stale (hstale : ∃ k ∈ c.sample, c.stale now k = true) :
    (insert now key value ttl c).1 = .added ∧
      ∃ gone, Admitted c key ⟨value, x, 0, now⟩ gone (insert now key value ttl c).2 ∧
        (∀ k, k ∈ gone ↔ k ∈ c.sample ∧ c.stale now k = true) ∧
        (insert now key value ttl c).2.counters = { c.counters with
          added := c.counters.added + 1
          expired := c.counters.expired + gone.length } := by
  obtain ⟨gone, hnodup, hmem, hsize, hroom⟩ := makeRoom_of_stale h.valid hstale key
  have hexpire := expire_eq gone c.sampled
  rw [insert_of_full (Nat.le_of_eq hfull.symm) hkey hx, hroom, if_pos rfl]
  refine ⟨rfl, gone, ?_, hmem, ?_⟩
  · exact admitted_of_removeAll h.valid hnodup (by rw [hexpire]; rfl) hsize (by rw [hexpire]; rfl)
      key _
  · rw [hexpire]
    rfl

/-- A newcomer whose sample holds no expired key takes the place of a key of it, or is refused. -/
theorem insert_of_fresh (hfresh : ∀ k ∈ c.sample, ¬ c.stale now k = true) :
    (Refuses now key c ∧
      insert now key value ttl c = (.rejected, c.sampled.record .rejected)) ∨
    (¬ Refuses now key c ∧ (insert now key value ttl c).1 = .added ∧
      ∃ v ∈ c.sample, Admitted c key ⟨value, x, 0, now⟩ [v] (insert now key value ttl c).2 ∧
        (insert now key value ttl c).2.counters = { c.counters with
          added := c.counters.added + 1
          evicted := c.counters.evicted + 1 } ∧
        c.Least v) := by
  have hpositive : 0 < c.size := by
    rw [hfull]
    exact h.budget_pos
  have hresident : ∀ k ∈ c.sample, (c.table.get? k).isSome := fun k hk ↦
    isSome_get?_of_mem_sample h.valid hk
  obtain ⟨v, hv, hvictim, hleast⟩ := exists_least_victim (c := c.sampled)
    (sample_ne_nil h.valid hpositive) hresident
  have hrefuses := refuses_iff_of_least h.valid hfresh hv hleast key
  rw [insert_of_full (Nat.le_of_eq hfull.symm) hkey hx, makeRoom_of_fresh hfresh key hvictim,
    hrefuses]
  by_cases hcold : c.policy = .popularity ∧ c.sketch.estimate key < c.sketch.estimate v
  · left
    rw [if_pos hcold]
    exact ⟨hcold, rfl⟩
  · right
    have hsize : ((c.sampled.drop v).record .evicted).size + [v].length = c.size := by
      have hremove : ((c.sampled.drop v).record .evicted).size = c.size - 1 :=
        Table.size_remove h.valid (hresident v hv)
      rw [List.length_singleton]
      omega
    rw [if_neg hcold]
    exact ⟨hcold, rfl, v, hv,
      admitted_of_removeAll h.valid (by simp) rfl hsize rfl key _, rfl, hleast⟩

end Full

/-- An insertion into a full cache, whatever its sample.

It is refused exactly where the popularity policy rules, no key of the sample has expired and all of
them were asked for more often than the newcomer; then nothing changes but the count of refusals and
the numbers drawn. Otherwise, where the sample holds expired keys, these are removed, each once and
counted as expired, and nothing live is lost. Where it holds none, one key of the sample is removed
and counted as evicted; under the popularity policy no key of the sample lies below it. -/
theorem insert_into_full {c : LocalCache} (h : c.Sound) (hfull : c.size = c.maxKeys) {key : String}
    (hkey : c.table.get? key = none) {now ttl : Nat} {x : Expiry}
    (hx : Expiry.after now ttl = some x) (value : String) :
    let r := insert now key value ttl c
    let e : Entry := ⟨value, x, 0, now⟩
    (r.1 = .rejected ↔ c.policy = .popularity ∧ (∀ k ∈ c.sample, ¬ c.stale now k = true) ∧
      ∀ k ∈ c.sample, c.sketch.estimate key < c.sketch.estimate k) ∧
    (r.1 = .rejected →
      r.2 = { c with
        counters := c.counters.record .rejected
        drawn := c.drawn + c.sample.length }) ∧
    (r.1 ≠ .rejected → (∃ k ∈ c.sample, c.stale now k = true) → r.1 = .added ∧
      (∃ gone, Admitted c key e gone r.2 ∧
        (∀ k, k ∈ gone ↔ k ∈ c.sample ∧ c.stale now k = true) ∧
        r.2.counters = { c.counters with
          added := c.counters.added + 1
          expired := c.counters.expired + gone.length }) ∧
      ∀ j e', c.table.get? j = some e' → e'.live now = true → r.2.table.get? j = some e') ∧
    (r.1 ≠ .rejected → (∀ k ∈ c.sample, ¬ c.stale now k = true) → r.1 = .added ∧
      ∃ v ∈ c.sample, Admitted c key e [v] r.2 ∧
        r.2.counters = { c.counters with
          added := c.counters.added + 1
          evicted := c.counters.evicted + 1 } ∧
        (c.policy = .popularity → ∃ least, c.rank? v = some least ∧
          ∀ k ∈ c.sample, ∀ rank, c.rank? k = some rank → ¬ rank.below least)) := by
  intro r e
  change (r.1 = .rejected ↔ Refuses now key c) ∧ _
  by_cases hstale : ∃ k ∈ c.sample, c.stale now k = true
  · obtain ⟨hadded, gone, hadmitted, hmem, hcounters⟩ :=
      insert_of_stale h hfull hkey hx value hstale
    have hnot : r.1 ≠ .rejected := by simp [r, hadded]
    obtain ⟨k, hk⟩ := hstale
    refine ⟨⟨fun hrejected ↦ absurd hrejected hnot, fun hrefuses ↦
        absurd hk.2 (hrefuses.2.1 k hk.1)⟩, fun hrejected ↦ absurd hrejected hnot,
      fun _ _ ↦ ⟨hadded, ⟨gone, hadmitted, hmem, hcounters⟩, fun j e' hj hlive ↦ ?_⟩,
      fun _ hfresh ↦ absurd hk.2 (hfresh k hk.1)⟩
    have hne : j ≠ key := by
      rintro rfl
      exact Option.some_ne_none e' (hj.symm.trans hkey)
    have hlives : ¬ c.stale now j = true := by
      rw [Entry.live] at hlive
      simp [stale, hj, Entry.expired, Expiry.expired, hlive]
    rw [hadmitted.others j hne, if_neg fun hgone ↦ hlives ((hmem j).mp hgone).2, hj]
  · have hfresh : ∀ k ∈ c.sample, ¬ c.stale now k = true := fun k hk hs ↦ hstale ⟨k, hk, hs⟩
    rcases insert_of_fresh h hfull hkey hx value hfresh with
      ⟨hrefuses, hrejected⟩ | ⟨hrefuses, hadded, hplace⟩
    · have hr : r.1 = .rejected := by simp [r, hrejected]
      exact ⟨⟨fun _ ↦ hrefuses, fun _ ↦ hr⟩, fun _ ↦ by rw [show r = _ from hrejected]; rfl,
        fun hnot ↦ absurd hr hnot, fun hnot ↦ absurd hr hnot⟩
    · have hnot : r.1 ≠ .rejected := by simp [r, hadded]
      exact ⟨⟨fun hr ↦ absurd hr hnot, fun hr ↦ absurd hr hrefuses⟩, fun hr ↦ absurd hr hnot,
        fun _ hsome ↦ absurd hsome hstale, fun _ _ ↦ ⟨hadded, hplace⟩⟩

/-- Two keys fill a cache, and both draws of a sample meet the one that has expired: the newcomer
takes its place, and it is counted as expired once. -/
theorem insert_into_full_of_repeated_draw :
    let c := (create ⟨fun _ ↦ 0, fun _ ↦ 0⟩ ⟨2, .popularity, 10⟩).insert 0 "a" "1" 5
      |>.2.insert 1 "b" "2" 0 |>.2
    let r := insert 9 "c" "3" 0 c
    c.Sound ∧ c.size = c.maxKeys ∧ c.table.get? "c" = none ∧ Expiry.after 9 0 = some .never ∧
      c.sample = ["a", "a"] ∧ r.1 = .added ∧ r.2.counters.expired = 1 ∧
      ∃ gone, Admitted c "c" ⟨"3", .never, 0, 9⟩ gone r.2 ∧
        ∀ k, k ∈ gone ↔ k ∈ c.sample ∧ c.stale 9 k = true := by
  intro c r
  have hsound : c.Sound := ((Reachable.create.act 0 (.insert "a" "1" 5)).act 1
    (.insert "b" "2" 0)).sound
  have hmain := insert_into_full hsound (by decide : c.size = c.maxKeys)
    (by decide : c.table.get? "c" = none) (by decide : Expiry.after 9 0 = some .never) "3"
  obtain ⟨hadded, ⟨gone, hadmitted, hmem, -⟩, -⟩ :=
    hmain.2.2.1 (by decide) ⟨"a", by decide, by decide⟩
  exact ⟨hsound, by decide, by decide, by decide, by decide, hadded, by decide, gone, hadmitted,
    hmem⟩

end LocalCache

end TwoTier
