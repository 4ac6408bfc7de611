import TwoTier.Proofs.Hybrid.Transparency
import TwoTier.Proofs.Local.Admission
import TwoTier.Proofs.Store.Refusal

/-!
# Writes that fail

A write fails where a tier refuses it, or where its deadline lies beyond the clock. One that goes to
a store first and to a local tier after it changes nothing then (`Hybrid.atOnce_set`): the store
refuses it before it does anything, and whatever deadline the store takes the local tier takes too.

A write to a local tier alone is different. Where its key is resident, or the table has room for it,
nothing has changed either (`LocalCache.insert_of_place`). But a full table makes room for a
newcomer before the deadline is found to be beyond the clock: the newcomer does not come, and a live
key, or some that had expired, made room for it in vain (`LocalCache.Spoilt`).

`LocalHandle.failed_set_undisturbed_iff` puts the two together.
-/

set_option autoImplicit false
set_option relaxedAutoImplicit false

namespace TwoTier

/-! ### Insertions that come to no end -/

namespace LocalCache

/-- Whether a value can be stored under a key without making room for it. -/
def HasPlace (c : LocalCache) (key : String) : Prop :=
  (c.table.get? key).isSome ∨ c.size < c.maxKeys

/-- What has become of a local tier that made room for a newcomer which did not come. -/
inductive Spoilt (now : Nat) (c c' : LocalCache) : Prop
  /-- Expired keys were removed, and counted so; nothing live is lost. -/
  | reclaimed (gone : List String) (hgone : gone ≠ [])
      (hview : ∀ key, c'.view now key = c.view now key)
      (hcounters : c'.counters = { c.counters with expired := c.counters.expired + gone.length })
  /-- One live key is lost, and counted as evicted. -/
  | evicted (victim : String) (hlive : (c.view now victim).isSome)
      (hview : ∀ key, c'.view now key = if key = victim then none else c.view now key)
      (hcounters : c'.counters = { c.counters with evicted := c.counters.evicted + 1 })

/-- A tier that made room in vain can be told by its counters. -/
theorem Spoilt.counters_ne {now : Nat} {c c' : LocalCache} (h : Spoilt now c c') :
    c'.counters ≠ c.counters := by
  intro hsame
  cases h with
  | reclaimed gone hgone _ hcounters =>
    have hexpired := congrArg Counters.expired (hcounters.symm.trans hsame)
    have hpositive := List.length_pos_iff.mpr hgone
    simp only at hexpired
    omega
  | evicted victim _ _ hcounters =>
    have hevicted := congrArg Counters.evicted (hcounters.symm.trans hsame)
    simp only at hevicted
    omega

/-- What has expired can be removed unseen. -/
theorem view_expire {now : Nat} {gone : List String} {c : LocalCache}
    (hgone : ∀ k ∈ gone, c.stale now k = true) (key : String) :
    (c.expire gone).view now key = c.view now key := by
  unfold view
  rw [expire_eq, Table.get?_removeAll]
  split_ifs with hkey
  · refine (view_eq_none (c := c) fun e he ↦ ?_).symm
    have hstale := hgone key hkey
    rw [stale, he, Option.any_some, Entry.expired, Expiry.expired, Bool.not_eq_true'] at hstale
    exact hstale
  · rfl

section Overflow

variable {c : LocalCache} {now ttl : Nat} (hafter : Expiry.after now ttl = none) {key : String}

include hafter

theorem place_of_overflow (value : String) : place now key value ttl c = (.overflow, c) := by
  unfold place Entry.create?
  rw [hafter]
  rfl

/-- Where no room has to be made, the deadline is found to be beyond the clock before anything is
done. -/
theorem insert_of_place (hplace : c.HasPlace key) (value : String) :
    insert now key value ttl c = (.overflow, c) := by
  unfold insert
  cases hkey : c.table.get? key with
  | some old =>
    dsimp only
    unfold Entry.create?
    rw [hafter]
    rfl
  | none =>
    have hroom : ¬ c.maxKeys ≤ c.size := by
      rcases hplace with hresident | hless
      · rw [hkey] at hresident
        exact absurd hresident Bool.false_ne_true
      · exact Nat.not_le.mpr hless
    dsimp only
    rw [if_neg hroom]
    exact place_of_overflow hafter value

/-- Where room has to be made, it is made before the deadline is found to be beyond the clock. -/
theorem insert_of_no_place (hplace : ¬ c.HasPlace key) (value : String) :
    insert now key value ttl c =
      if (c.makeRoom now key).1 then (.overflow, (c.makeRoom now key).2)
      else (.rejected, (c.makeRoom now key).2.record .rejected) := by
  obtain ⟨hkey, hfull⟩ := not_or.mp hplace
  rw [Option.not_isSome_iff_eq_none] at hkey
  unfold insert
  simp only [hkey, if_pos (Nat.not_lt.mp hfull)]
  obtain ⟨admitted, c'⟩ := c.makeRoom now key
  cases admitted with
  | false => rfl
  | true => exact place_of_overflow hafter value

/-- An insertion that made room and came to no end has removed what had expired of a sample, or,
where nothing of it had, one live key. -/
theorem spoilt_of_overflow (h : c.Sound) (hplace : ¬ c.HasPlace key) {value : String}
    (hoverflow : (insert now key value ttl c).1 = .overflow) :
    Spoilt now c (insert now key value ttl c).2 := by
  have hpositive : 0 < c.size :=
    Nat.lt_of_lt_of_le h.budget_pos (Nat.not_lt.mp (not_or.mp hplace).2)
  have hinsert := insert_of_no_place hafter hplace value
  rw [hinsert] at hoverflow ⊢
  by_cases hstale : ∃ k ∈ c.sample, c.stale now k = true
  · obtain ⟨gone, -, hmem, -, hroom⟩ := makeRoom_of_stale h.valid hstale key
    obtain ⟨k, hk⟩ := hstale
    have hview : ∀ j, (c.sampled.expire gone).view now j = c.sampled.view now j :=
      view_expire fun k hk ↦ ((hmem k).mp hk).2
    rw [hroom, if_pos rfl]
    refine .reclaimed gone (List.ne_nil_of_mem ((hmem k).mpr hk)) hview ?_
    rw [expire_eq]
    rfl
  · have hfresh : ∀ k ∈ c.sample, ¬ c.stale now k = true := fun k hk hs ↦ hstale ⟨k, hk, hs⟩
    have hresident : ∀ k ∈ c.sample, (c.table.get? k).isSome := fun k hk ↦
      isSome_get?_of_mem_sample h.valid hk
    obtain ⟨v, hv, hvictim, -⟩ := exists_least_victim (c := c.sampled)
      (sample_ne_nil h.valid hpositive) hresident
    have hroom := makeRoom_of_fresh hfresh key hvictim
    by_cases hcold : c.policy = .popularity ∧ c.sketch.estimate key < c.sketch.estimate v
    · rw [hroom, if_pos hcold] at hoverflow
      exact absurd hoverflow nofun
    · rw [hroom, if_neg hcold, if_pos rfl]
      refine .evicted v ?_ (fun j ↦ view_drop now v j c.sampled) rfl
      obtain ⟨e, he⟩ := Option.isSome_iff_exists.mp (hresident v hv)
      have hlive := hfresh v hv
      rw [stale, he, Option.any_some, Entry.expired, Expiry.expired, Bool.not_eq_true',
        Bool.not_eq_false] at hlive
      rw [view_eq_some_iff.mpr ⟨e, he, rfl, rfl, hlive⟩]
      rfl

end Overflow

end LocalCache

/-! ### What a failed write leaves -/

namespace Heap

/-- At the moment of a heap another one shows the same on all tiers, with the same deadlines, and
nothing has been counted in between. -/
structure Undisturbed (h h' : Heap) : Prop where
  /-- The values that the local tiers show, and when they expire. -/
  shown : ∀ l key, (h'.tiers.localTier l).view h.now key = (h.tiers.localTier l).view h.now key
  /-- What the local tiers have counted. -/
  counted : ∀ l, (h'.tiers.localTier l).counters = (h.tiers.localTier l).counters
  /-- The stores: what they show, when it expires, and what they have counted. -/
  stores : ∀ s, Store.Alike h.now (h.tiers.store s) (h'.tiers.store s)
  /-- The fills in flight, and what the guards have counted. -/
  guards : h'.guards = h.guards

theorem Undisturbed.refl (h : Heap) : h.Undisturbed h where
  shown _ _ := rfl
  counted _ := rfl
  stores _ := .refl _ _
  guards := rfl

theorem Undisturbed.setStore {h : Heap} {s : Nat} {x : Store}
    (hx : Store.Alike h.now (h.tiers.store s) x) :
    h.Undisturbed { h with tiers := h.tiers.setStore s x } where
  shown _ _ := rfl
  counted _ := rfl
  stores j := by
    simp only [Tiers.store_setStore]
    split_ifs with hj
    · rw [hj]
      exact hx
    · exact .refl _ _
  guards := rfl

/-- To put a local tier into its own state disturbs nothing. -/
theorem Undisturbed.setLocal (h : Heap) (l : Nat) :
    h.Undisturbed { h with tiers := h.tiers.setLocal l (h.tiers.localTier l) } where
  shown j key := by
    simp only [Tiers.localTier_setLocal]
    split_ifs with hj
    · rw [hj]
    · rfl
  counted j := by
    simp only [Tiers.localTier_setLocal]
    split_ifs with hj
    · rw [hj]
    · rfl
  stores _ := .refl _ _
  guards := rfl

end Heap

/-- A store takes a value only with a deadline that the clock can represent. -/
theorem Store.after_of_set {now ttl : Nat} {key value : String} {s : Store} {u : Unit}
    (h : (set now key value ttl s).1 = .ok u) : Expiry.after now ttl ≠ none := by
  intro hafter
  unfold set whenOnline at h
  rw [hafter] at h
  split_ifs at h

variable {h : Heap} {me : Nat} {key value : String} {ttl : Nat}

/-- A write on both tiers fails without an effect: the store fails before it does anything, and the
local tier, which comes after it, has room for every deadline that the store has taken. -/
theorem Hybrid.atOnce_set (front : Front) (x : StoreHandle) :
    ((Hybrid.layered front x).set key value ttl).AtOnce me h
      (fun a h' ↦ a ≠ .ok () → h.Undisturbed h') h.Undisturbed := by
  refine Call.AtOnce.bind (P := fun a h' ↦ h'.now = h.now ∧
      (a = .ok () → Expiry.after h.now ttl ≠ none) ∧ (a ≠ .ok () → h.Undisturbed h')) ?_
    fun a h' ⟨hnow, hok, hfailed⟩ ↦ ?_
  · have hrefusing := Store.refusing_set h.now key value ttl (h.tiers.store x.store)
    change (Call.onStore x.store fun now ↦ Store.set now key value ttl).AtOnce _ _ _ _
    refine Call.AtOnce.onStore
      (fun u hset ↦ ⟨rfl, fun _ ↦ Store.after_of_set hset, fun hne ↦ absurd rfl hne⟩)
      (fun f hset ↦ ⟨rfl, nofun, fun _ ↦ .setStore (hrefusing ?_)⟩)
      fun hset ↦ .setStore (hrefusing ?_)
    · rw [hset]
      trivial
    · rw [hset]
      trivial
  · cases a with
    | error f => exact Call.AtOnce.done fun _ ↦ hfailed nofun
    | ok u =>
      refine Call.AtOnce.bind (P := fun _ _ ↦ True) ?_ fun _ _ _ ↦
        Call.AtOnce.done fun hne ↦ absurd rfl hne
      refine Call.AtOnce.populate (fun _ ↦ trivial) fun _ ↦ ⟨fun _ ↦ trivial, fun hoverflow ↦ ?_⟩
      rw [hnow] at hoverflow
      exact absurd (LocalCache.after_of_overflow hoverflow) (hok rfl)

namespace LocalHandle

/-- What an insertion that came to no end has left: exactly where no room had to be made, everything
is as before; else the table has been spoilt, and nothing beside it has changed. -/
structure Interrupted (l : LocalHandle) (h : Heap) (key : String) (h' : Heap) : Prop where
  undisturbed_iff : h.Undisturbed h' ↔ (h.tiers.localTier l.cache).HasPlace key
  spoilt : ¬ (h.tiers.localTier l.cache).HasPlace key →
    ∃ c', h' = { h with tiers := h.tiers.setLocal l.cache c' } ∧
      (h.tiers.localTier l.cache).Spoilt h.now c'

variable {l : LocalHandle} (hsound : (h.tiers.localTier l.cache).Sound)

include hsound

theorem interrupted_of_overflow
    (hoverflow :
      (LocalCache.insert h.now key value ttl (h.tiers.localTier l.cache)).1 = .overflow) :
    l.Interrupted h key
      { h with
        tiers := h.tiers.setLocal l.cache
          (LocalCache.insert h.now key value ttl (h.tiers.localTier l.cache)).2 } := by
  have hafter := LocalCache.after_of_overflow hoverflow
  have hspoilt (hplace : ¬ (h.tiers.localTier l.cache).HasPlace key) :=
    LocalCache.spoilt_of_overflow hafter hsound hplace hoverflow
  refine ⟨⟨fun hsame ↦ ?_, fun hplace ↦ ?_⟩, fun hplace ↦ ⟨_, rfl, hspoilt hplace⟩⟩
  · by_contra hplace
    have hcounted := hsame.counted l.cache
    simp only [Tiers.localTier_setLocal, if_true] at hcounted
    exact (hspoilt hplace).counters_ne hcounted
  · rw [LocalCache.insert_of_place hafter hplace value]
    exact .setLocal h l.cache

theorem atOnce_insert (key value : String) (ttl : Nat) :
    (l.insert key value ttl).AtOnce me h (fun _ _ ↦ True) (l.Interrupted h key) := by
  refine Call.AtOnce.bind (P := fun r h' ↦ r = .overflow → l.Interrupted h key h')
    (Call.AtOnce.onLocal (interrupted_of_overflow hsound)) fun r h' hr ↦ ?_
  cases r with
  | added => exact Call.AtOnce.done trivial
  | updated => exact Call.AtOnce.done trivial
  | rejected => exact Call.AtOnce.done trivial
  | overflow => exact Call.AtOnce.crash (hr rfl)

theorem atOnce_set (key value : String) (ttl : Nat) :
    (l.set key value ttl).AtOnce me h (fun a h' ↦ a ≠ .ok () → h.Undisturbed h')
      (l.Interrupted h key) := by
  refine Call.AtOnce.whenOpen (fun _ _ ↦ .refl h) fun _ ↦ ?_
  refine Call.AtOnce.bind (P := fun _ _ ↦ True) (Call.AtOnce.discard ?_) fun _ _ _ ↦
    Call.AtOnce.done fun hne ↦ absurd rfl hne
  exact atOnce_insert hsound key value ttl

omit hsound

/-- A write ends in one step, on both tiers, on a local tier and as an insertion. Where it fails on
both tiers, with an error or because its deadline lies beyond the clock, nothing has changed on any
tier. Where a local tier refuses it, nothing has changed either. Where its deadline lies beyond the
clock, nothing has changed in a local tier exactly if the key was resident or the table had room;
else the newcomer has cost a live key, or some that had expired, and come to nothing. -/
theorem failed_set_undisturbed_iff (h : Heap) (me : Nat) (key value : String) (ttl : Nat) :
    (∀ (front : Front) (x : StoreHandle),
      ((Hybrid.layered front x).set key value ttl).AtOnce me h
        (fun a h' ↦ a ≠ .ok () → h.Undisturbed h') h.Undisturbed) ∧
    ∀ (l : LocalHandle) (chance : Chance) (s : LocalSettings),
      LocalCache.Reachable chance s (h.tiers.localTier l.cache) →
        (l.set key value ttl).AtOnce me h (fun a h' ↦ a ≠ .ok () → h.Undisturbed h')
          (l.Interrupted h key) ∧
        (l.insert key value ttl).AtOnce me h (fun _ _ ↦ True) (l.Interrupted h key) :=
  ⟨fun front x ↦ Hybrid.atOnce_set front x, fun _ _ _ hreachable ↦
    ⟨atOnce_set hreachable.sound key value ttl, atOnce_insert hreachable.sound key value ttl⟩⟩

/-- A local tier with one key. -/
def holding (maxKeys : Nat) : LocalCache :=
  ((LocalCache.create ⟨fun _ ↦ 0, id⟩ ⟨maxKeys, .random, 1⟩).insert 0 "a" "1" 0).2

theorem reachable_holding (maxKeys : Nat) :
    LocalCache.Reachable ⟨fun _ ↦ 0, id⟩ ⟨maxKeys, .random, 1⟩ (holding maxKeys) :=
  .act 0 (.insert "a" "1" 0) .create

/-- A newcomer comes to a table with room for it, with a deadline beyond the clock: nothing has
changed. -/
theorem failed_set_undisturbed_of_room :
    let l : LocalHandle := ⟨0, 0⟩
    let h : Heap := { Heap.initial with tiers := Tiers.empty.setLocal 0 (holding 2) }
    ∃ h', (l.set "b" "2" Clock.limit).halt 0 h = (h', .crash) ∧ h.Undisturbed h' := by
  intro l h
  have hcrash : ((l.set "b" "2" Clock.limit).halt 0 h).2.conclusion? = some .crash := by decide
  have hplace : (h.tiers.localTier l.cache).HasPlace "b" := Or.inr (by decide)
  have hset := ((failed_set_undisturbed_iff h 0 "b" "2" Clock.limit).2 l _ _
    (reachable_holding 2)).1
  rcases hset with ⟨h', a, hhalt, -⟩ | ⟨h', hhalt, hbroken⟩
  · rw [hhalt] at hcrash
    exact absurd hcrash (by simp [Call.conclusion?])
  · exact ⟨h', hhalt, hbroken.undisturbed_iff.mpr hplace⟩

/-- A newcomer comes to a full table, with a deadline beyond the clock: it does not come, and the
key that was there is lost. -/
theorem not_undisturbed_of_full_table :
    let l : LocalHandle := ⟨0, 0⟩
    let h : Heap := { Heap.initial with tiers := Tiers.empty.setLocal 0 (holding 1) }
    let r := (l.set "b" "2" Clock.limit).halt 0 h
    LocalCache.Reachable ⟨fun _ ↦ 0, id⟩ ⟨1, .random, 1⟩ (h.tiers.localTier 0) ∧
      r.2.conclusion? = some .crash ∧
      (h.tiers.localTier 0).contains 0 "a" = true ∧
      (r.1.tiers.localTier 0).contains 0 "a" = false ∧ ¬ h.Undisturbed r.1 := by
  intro l h r
  have hheld : (h.tiers.localTier 0).contains 0 "a" = true := by decide
  have hlost : (r.1.tiers.localTier 0).contains 0 "a" = false := by decide
  refine ⟨reachable_holding 1, by decide, hheld, hlost, fun hsame ↦ ?_⟩
  have hshown := hsame.shown 0 "a"
  rw [LocalCache.contains_eq_view] at hheld hlost
  change LocalCache.view 0 _ "a" = LocalCache.view 0 _ "a" at hshown
  rw [hshown, hheld] at hlost
  exact Bool.false_ne_true hlost.symm

end LocalHandle

end TwoTier
