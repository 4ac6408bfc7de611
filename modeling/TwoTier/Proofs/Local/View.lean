import TwoTier.Proofs.Local.Contents

/-!
# What can be seen of a local tier

At a moment, a key shows its value and when this value expires, unless it has expired already
(`LocalCache.view`). A look-up and a question whether a key is held see nothing else
(`LocalCache.fst_lookup_eq_view`, `LocalCache.contains_eq_view`), and everything that the tier does
is described by what it does to the views: a read changes none (`LocalCache.view_lookup`), room is
made by taking one key at most (`LocalCache.view_makeRoom`), and an insertion shows its own key
(`LocalCache.view_insert`). Time only takes views away (`LocalCache.view_of_le`).

The key that makes room while it could still be seen is the victim (`LocalCache.victim?`). The tier
counts the values that it stores and the victims that it evicts, one by one
(`LocalCache.tally_insert`).
-/

set_option autoImplicit false
set_option relaxedAutoImplicit false

namespace TwoTier

/-- What is stored at a moment is live then. -/
theorem Expiry.live_of_after {now ttl : Nat} {x : Expiry} (h : after now ttl = some x) :
    x.live now = true := by
  rw [live_after_iff h]
  omega

/-- What is live has been live before. -/
theorem Expiry.live_of_le {x : Expiry} {s t : Nat} (hst : s ≤ t) (h : x.live t = true) :
    x.live s = true := by
  by_contra hdead
  have hexpired := expired_mono hst (e := x) (by simpa [expired] using hdead)
  rw [expired, h] at hexpired
  exact Bool.false_ne_true hexpired

theorem Expiry.filter_live_of_le {s t : Nat} (hst : s ≤ t) (o : Option (String × Expiry)) :
    o.filter (fun x ↦ x.2.live t) =
      (o.filter fun x ↦ x.2.live s).filter fun x ↦ x.2.live t := by
  rw [Option.filter_filter]
  congr 1
  funext x
  rw [Bool.eq_iff_iff, Bool.and_eq_true]
  exact ⟨fun h ↦ ⟨live_of_le hst h, h⟩, And.right⟩

/-- Whether an insertion stored its value. -/
def Insertion.accepted : Insertion → Bool
  | added | updated => true
  | rejected | overflow => false

namespace LocalCache

/-- What can be seen of a key at a moment: its value, and when this expires. -/
def view (now : Nat) (c : LocalCache) (key : String) : Option (String × Expiry) :=
  ((c.table.get? key).map fun e ↦ (e.value, e.expiry)).filter fun x ↦ x.2.live now

/-- A look-up answers what can be seen. -/
theorem fst_lookup_eq_view (now : Nat) (key : String) (c : LocalCache) :
    (lookup now key c).1 = (c.view now key).map Prod.fst := by
  rw [fst_lookup, view, Option.filter_map, Option.map_map]
  rfl

/-- A key is held where something can be seen of it. -/
theorem contains_eq_view (now : Nat) (key : String) (c : LocalCache) :
    contains now key c = (c.view now key).isSome := by
  rw [contains_eq_isSome_lookup, fst_lookup_eq_view, Option.isSome_map]

/-- What can be seen has an entry that has not expired. -/
theorem view_eq_some_iff {now : Nat} {c : LocalCache} {key v : String} {x : Expiry} :
    c.view now key = some (v, x) ↔
      ∃ e, c.table.get? key = some e ∧ e.value = v ∧ e.expiry = x ∧ x.live now = true := by
  rw [view, Option.filter_eq_some_iff, Option.map_eq_some_iff]
  constructor
  · rintro ⟨⟨e, hget, hview⟩, hlive⟩
    obtain ⟨rfl, rfl⟩ := Prod.mk.inj hview
    exact ⟨e, hget, rfl, rfl, hlive⟩
  · rintro ⟨e, hget, rfl, rfl, hlive⟩
    exact ⟨⟨e, hget, rfl⟩, hlive⟩

/-- Nothing can be seen where every entry has expired. -/
theorem view_eq_none {now : Nat} {c : LocalCache} {key : String}
    (h : ∀ e, c.table.get? key = some e → e.live now = false) : c.view now key = none := by
  rw [Option.eq_none_iff_forall_ne_some]
  rintro ⟨v, x⟩ hview
  obtain ⟨e, hget, -, rfl, hlive⟩ := view_eq_some_iff.mp hview
  exact Bool.false_ne_true ((h e hget).symm.trans hlive)

/-- Time only takes away what can be seen. -/
theorem view_of_le {s t : Nat} (hst : s ≤ t) (c : LocalCache) (key : String) :
    c.view t key = (c.view s key).filter fun x ↦ x.2.live t :=
  Expiry.filter_live_of_le hst _

section Views

variable (now : Nat) (key j : String) (c : LocalCache)

theorem view_congr {c c' : LocalCache} (h : c'.table.get? j = c.table.get? j) :
    c'.view now j = c.view now j := by
  rw [view, view, h]

/-- A look-up changes nothing that can be seen, and no moment of expiry. -/
theorem view_lookup : (lookup now key c).2.view now j = c.view now j := by
  unfold view
  rw [get?_lookup]
  split_ifs with hj
  · rw [hj, Option.map_map]
    cases c.table.get? key with
    | none => rfl
    | some e =>
      by_cases hlive : e.live now = true
      · rw [Option.filter_some, if_pos hlive]
        rfl
      · rw [Option.filter_some, if_neg hlive]
        exact (if_neg hlive).symm
  · rfl

/-- What a look-up answers can still be seen after it. -/
theorem exists_view_of_lookup {v : String} (h : (lookup now key c).1 = some v) :
    ∃ x, (lookup now key c).2.view now key = some (v, x) := by
  rw [fst_lookup_eq_view] at h
  obtain ⟨⟨_, x⟩, hview, rfl⟩ := Option.map_eq_some_iff.mp h
  exact ⟨x, (view_lookup now key key c).trans hview⟩

theorem view_drop : (c.drop key).view now j = if j = key then none else c.view now j := by
  unfold view
  rw [table_drop, Table.get?_remove]
  split_ifs <;> rfl

/-- A key whose entry has expired can be dropped unseen. -/
theorem view_drop_expired {e : Entry} (he : c.table.get? key = some e)
    (hexpired : e.live now = false) : (c.drop key).view now j = c.view now j := by
  rw [view_drop]
  split_ifs with hj
  · rw [hj]
    refine (view_eq_none fun e' he' ↦ ?_).symm
    rw [he] at he'
    rw [← Option.some.inj he']
    exact hexpired
  · rfl

/-- What a reclamation removes could not be seen. -/
theorem view_reclaim (keys : List String) :
    (reclaim now keys c).view now j = c.view now j := by
  induction keys generalizing c with
  | nil => rfl
  | cons k rest ih =>
    unfold reclaim
    split
    · exact ih c
    · rename_i e he
      split
      · exact ih c
      · rename_i hdead
        rw [ih]
        exact view_drop_expired now k j c he (eq_false_of_ne_true hdead)

/-- What a purge removes could not be seen. -/
theorem view_purgeExpired : (purgeExpired now c).2.view now j = c.view now j := by
  unfold view
  rw [table_purgeExpired, Table.get?_removeAll]
  split_ifs with hj
  · refine (view_eq_none (c := c) fun e he ↦ ?_).symm
    obtain ⟨x, hx⟩ := (Dict.mem_iff_exists _ _).mp (Std.ExtTreeMap.mem_keys.mp hj)
    rw [Std.ExtTreeMap.getElem?_filter'] at hx
    obtain ⟨hslot, hexpired⟩ := Option.filter_eq_some_iff.mp hx
    have hentry : c.table.get? j = some x.entry := by rw [Table.get?, hslot, Option.map_some]
    rw [hentry] at he
    rw [← Option.some.inj he]
    simpa [Entry.expired, Expiry.expired, Entry.live] using hexpired
  · rfl

/-! ### Making room -/

/-- The victim of a newcomer to a full cache: the key that the policy names, where nothing that has
expired could be reclaimed and the newcomer is admitted in its place. -/
def victim? (newcomer : String) : Option String :=
  let keys := c.sample
  let c := { c with drawn := c.drawn + keys.length }
  if (reclaim now keys c).size < c.size then none
  else (c.victim keys).filter fun v ↦
    !(c.policy.admits && decide (c.sketch.estimate newcomer < c.sketch.estimate v))

/-- The key that an insertion evicts: where a newcomer comes to a full cache, its victim. -/
def evicted? (key : String) : Option String :=
  if (c.table.get? key).isNone && decide (c.maxKeys ≤ c.size) then c.victim? now key else none

/-- To make room takes the victim, and nothing else that can be seen. -/
theorem view_makeRoom : (c.makeRoom now key).2.view now j =
    if c.victim? now key = some j then none else c.view now j := by
  unfold makeRoom victim?
  dsimp only
  by_cases hless : (reclaim now c.sample { c with drawn := c.drawn + c.sample.length }).size <
      { c with drawn := c.drawn + c.sample.length }.size
  · rw [if_pos hless, if_pos hless, if_neg (Option.some_ne_none j).symm]
    exact view_reclaim now j _ _
  · rw [if_neg hless, if_neg hless]
    cases hv : victim { c with drawn := c.drawn + c.sample.length } c.sample with
    | none => rfl
    | some v =>
      dsimp only
      cases hcold : c.policy.admits && decide (c.sketch.estimate key < c.sketch.estimate v) with
      | true =>
        simp only [Option.filter_some, hcold, Bool.not_true, Bool.false_eq_true, if_false, if_true,
          reduceCtorEq]
        rfl
      | false =>
        simp only [Option.filter_some, hcold, Bool.not_false, Bool.false_eq_true, if_false, if_true,
          Option.some.injEq]
        refine (view_drop now v j _).trans ?_
        simp only [eq_comm (a := v)]
        rfl

theorem view_place (value : String) (ttl : Nat) : (place now key value ttl c).2.view now j =
    if j = key ∧ (place now key value ttl c).1.accepted = true then
      (Expiry.after now ttl).map fun x ↦ (value, x)
    else c.view now j := by
  unfold place
  cases hcreate : Entry.create? now value ttl with
  | none => simp [Insertion.accepted]
  | some e =>
    obtain ⟨rfl, hexpiry⟩ := Entry.of_create? hcreate
    simp only [Insertion.accepted, and_true]
    by_cases hj : j = key
    · rw [if_pos hj, hexpiry, hj]
      exact view_eq_some_iff.mpr ⟨e, by simp, rfl, rfl, Expiry.live_of_after hexpiry⟩
    · rw [if_neg hj]
      exact view_congr now j (by simp [hj])

/-- An accepted insertion shows its value and when this expires. Beyond that an insertion takes what
it evicts from sight, and changes nothing that can be seen. -/
theorem view_insert (value : String) (ttl : Nat) : (insert now key value ttl c).2.view now j =
    if j = key ∧ (insert now key value ttl c).1.accepted = true then
      (Expiry.after now ttl).map fun x ↦ (value, x)
    else if c.evicted? now key = some j then none else c.view now j := by
  unfold insert evicted?
  cases hkey : c.table.get? key with
  | some old =>
    rw [Option.isNone_some, Bool.false_and, if_neg Bool.false_ne_true,
      if_neg (Option.some_ne_none j).symm]
    dsimp only
    cases hcreate : Entry.create? now value ttl with
    | none => simp [Insertion.accepted]
    | some e =>
      obtain ⟨rfl, hexpiry⟩ := Entry.of_create? hcreate
      simp only [Insertion.accepted, and_true]
      by_cases hj : j = key
      · rw [if_pos hj, hexpiry, hj]
        exact view_eq_some_iff.mpr ⟨{ e with frequency := old.frequency }, by simp [hkey], rfl, rfl,
          Expiry.live_of_after hexpiry⟩
      · rw [if_neg hj]
        exact view_congr now j (by simp [hj])
  | none =>
    rw [Option.isNone_none, Bool.true_and]
    dsimp only
    by_cases hfull : c.maxKeys ≤ c.size
    · have hmade := view_makeRoom now key j c
      rw [if_pos hfull, if_pos (decide_eq_true hfull)]
      split
      · rename_i c' hroom
        rw [hroom] at hmade
        simp only [Insertion.accepted, Bool.false_eq_true, and_false, if_false]
        exact hmade
      · rename_i c' hroom
        rw [hroom] at hmade
        rw [view_place, hmade]
    · simp only [hfull, decide_false, Bool.false_eq_true, if_false, reduceCtorEq]
      exact view_place now key j c value ttl

/-! ### What is counted -/

/-- How many values were stored, and how many victims were evicted, as the tier counts them. -/
def tally (c : LocalCache) : Nat × Nat :=
  (c.counters.added + c.counters.updated, c.counters.evicted)

theorem tally_lookup : (lookup now key c).2.tally = c.tally := by
  have hnote : (c.note key).tally = c.tally := by
    unfold note
    split <;> rfl
  unfold lookup
  dsimp only
  split
  · exact hnote
  · split <;> exact hnote

theorem tally_reclaim (keys : List String) : (reclaim now keys c).tally = c.tally := by
  induction keys generalizing c with
  | nil => rfl
  | cons k rest ih =>
    unfold reclaim
    split
    · exact ih c
    · split
      · exact ih c
      · rw [ih]
        rfl

theorem tally_purgeExpired : (purgeExpired now c).2.tally = c.tally := by
  unfold purgeExpired
  dsimp only
  generalize c.table.expiredKeys now = keys
  induction keys generalizing c with
  | nil => rfl
  | cons k rest ih => exact ih ((c.drop k).record .expired)

/-- A victim is counted as evicted. -/
theorem tally_makeRoom : (c.makeRoom now key).2.tally =
    (c.tally.1, c.tally.2 + (c.victim? now key).toList.length) := by
  unfold makeRoom victim?
  dsimp only
  by_cases hless : (reclaim now c.sample { c with drawn := c.drawn + c.sample.length }).size <
      { c with drawn := c.drawn + c.sample.length }.size
  · rw [if_pos hless, if_pos hless]
    exact tally_reclaim now _ _
  · rw [if_neg hless, if_neg hless]
    cases hv : victim { c with drawn := c.drawn + c.sample.length } c.sample with
    | none => rfl
    | some v =>
      cases hcold : c.policy.admits && decide (c.sketch.estimate key < c.sketch.estimate v) <;>
      · simp only [Option.filter_some, hcold, Bool.not_true, Bool.not_false, Bool.false_eq_true,
          if_false, if_true]
        rfl

theorem tally_place (value : String) (ttl : Nat) : (place now key value ttl c).2.tally =
    (c.tally.1 + (place now key value ttl c).1.accepted.toNat, c.tally.2) := by
  unfold place
  split
  · rfl
  · exact Prod.ext (Nat.add_right_comm _ _ _) rfl

/-- An insertion counts the value that it stores, and the key that it evicts. -/
theorem tally_insert (value : String) (ttl : Nat) : (insert now key value ttl c).2.tally =
    (c.tally.1 + (insert now key value ttl c).1.accepted.toNat,
      c.tally.2 + (c.evicted? now key).toList.length) := by
  unfold insert evicted?
  cases hkey : c.table.get? key with
  | some old =>
    dsimp only
    split <;> rfl
  | none =>
    dsimp only
    by_cases hfull : c.maxKeys ≤ c.size
    · have hmade := tally_makeRoom now key c
      simp only [hfull, if_true, decide_true, Option.isNone_none, Bool.and_true]
      split
      · rename_i c' hroom
        rw [hroom] at hmade
        exact hmade
      · rename_i c' hroom
        rw [hroom] at hmade
        rw [tally_place, hmade]
    · simp only [hfull, if_false, decide_false, Bool.and_false, Bool.false_eq_true]
      exact tally_place now key c value ttl

end Views

end LocalCache

end TwoTier
