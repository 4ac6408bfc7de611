import TwoTier.Proofs.Hybrid.Provenance
import TwoTier.Tier.Cache

/-!
# Caches that fill themselves, and what a call finds

A local tier, a store, and a local tier in front of a store answer a key that they hold, and fill it
where they hold none (`Filler`). A call first looks at the tiers (`Filler.probe`) and turns to the
guard where it has found nothing (`Filler.getOrSet_eq_bind`). It has not used its fetch by then, so
that what it does next is the same for every fetch: it answers what the tiers show, the local tier
first (`Filler.exec_of_found`), or it waits for the fill of the key (`Filler.exec_of_misses`).
-/

set_option autoImplicit false
set_option relaxedAutoImplicit false

namespace TwoTier

/-- The second heap differs from the first in the tiers only, and no fetch has begun meanwhile. -/
def Heap.Unfetched (h h' : Heap) : Prop :=
  ∃ tiers, tiers.begun = h.tiers.begun ∧ h' = { h with tiers := tiers }

namespace Heap.Unfetched

variable {h h' h'' : Heap}

theorem refl (h : Heap) : h.Unfetched h := ⟨h.tiers, rfl, rfl⟩

theorem trans (hh : h.Unfetched h') (hh' : h'.Unfetched h'') : h.Unfetched h'' := by
  obtain ⟨t, ht, rfl⟩ := hh
  obtain ⟨t', ht', rfl⟩ := hh'
  exact ⟨t', ht'.trans ht, rfl⟩

theorem setLocal (h : Heap) (n : Nat) (c : LocalCache) :
    h.Unfetched { h with tiers := h.tiers.setLocal n c } := ⟨h.tiers.setLocal n c, rfl, rfl⟩

theorem setStore (h : Heap) (n : Nat) (x : Store) :
    h.Unfetched { h with tiers := h.tiers.setStore n x } := ⟨h.tiers.setStore n x, rfl, rfl⟩

end Heap.Unfetched

/-- The value that a local tier shows under a key: none once it has been closed. -/
def LocalHandle.shown (l : LocalHandle) (h : Heap) (key : String) : Option String :=
  if (h.tiers.localTier l.cache).closed then none
  else ((h.tiers.localTier l.cache).view h.now key).map Prod.fst

/-- The text that a store shows under a key: none while it is offline. -/
def StoreHandle.shown (x : StoreHandle) (h : Heap) (key : String) : Option String :=
  if (h.tiers.store x.store).offline then none else (h.tiers.store x.store).text? h.now key

/-- What a reading through a hybrid tier that fills does before it turns to the guard. -/
def Hybrid.probe (front : Front) (x : StoreHandle) (key : String) (ttl : Nat) :
    Call (Option (Answer String)) := do
  match ← (layered front x).localHit key with
  | some v => return some (.ok v)
  | none =>
    match ← x.get key with
    | .ok v =>
      (layered front x).populate key v (front.settings.populationFor ttl)
      return some (.ok v)
    | .error _ => return none

/-- A cache of this process that fills itself. -/
inductive Filler where
  /-- A local tier alone. -/
  | near (l : LocalHandle)
  /-- A store alone. -/
  | far (x : StoreHandle)
  /-- A local tier in front of a store. -/
  | layered (front : Front) (x : StoreHandle)

namespace Filler

/-- The cache itself. -/
def cache : Filler → Cache
  | near l => .localTier l
  | far x => .store x
  | layered front x => .hybrid front (.store x)

/-- The guard of its fills. -/
def guard : Filler → Nat
  | near l => l.guard
  | far x => x.guard
  | layered front _ => front.guard

/-- Reads the text of a key, and fetches and stores it where the cache holds none. -/
def getOrSet (c : Filler) (key : String) (ttl : Nat) (fetch : Fetch) : Call (Answer String) :=
  c.cache.tier.getOrSet key ttl fetch

/-- What a fill of a key does. -/
def fill (c : Filler) (key : String) (ttl : Nat) (fetch : Fetch) : Call (Answer String) :=
  match c with
  | near l => l.fill key ttl fetch
  | far x => x.fill key ttl fetch
  | layered front x => (Hybrid.layered front x).fill key ttl fetch

/-- The value that a call finds under a key, in the local tier or else in the store. -/
def found (c : Filler) (h : Heap) (key : String) : Option String :=
  match c with
  | near l => l.shown h key
  | far x => x.shown h key
  | layered front x => (front.near.shown h key).or (x.shown h key)

/-- A call finds nothing under a key, and is not refused. A local tier alone refuses once it has
been closed, and a store alone while it is offline or where the key holds another kind of value; in
a layered cache neither keeps a caller from its fetch. -/
def Misses (c : Filler) (h : Heap) (key : String) : Prop :=
  match c with
  | near l => (h.tiers.localTier l.cache).closed = false ∧ l.shown h key = none
  | far x => (h.tiers.store x.store).offline = false ∧
      (h.tiers.store x.store).live? h.now key = none
  | layered front x => front.near.shown h key = none ∧ x.shown h key = none

/-- No copy that the cache leaves of what the store holds is to stay for 2^55 seconds or more. -/
def Bounded : Filler → Prop
  | layered front _ => front.settings.populationSecs < 2 ^ 55
  | _ => True

/-- What a call does before it turns to the guard: it has an answer, or has found nothing. -/
def probe (c : Filler) (key : String) (ttl : Nat) : Call (Option (Answer String)) :=
  match c with
  | near l => do
    if ← Call.look fun h ↦ (h.tiers.localTier l.cache).closed then return some (.error .closed)
    else
      match ← l.lookup key with
      | some v => return some (.ok v)
      | none => return none
  | far x => do
    match ← x.get key with
    | .ok v => return some (.ok v)
    | .error .notFound => return none
    | .error f => return some (.error f)
  | layered front x => Hybrid.probe front x key ttl

variable (c : Filler) (key : String) (ttl : Nat)

/-- A call that finds nothing waits for the fill of the key. -/
theorem getOrSet_eq_bind (fetch : Fetch) : c.getOrSet key ttl fetch =
    (c.probe key ttl).bind fun
      | some a => .done a
      | none => Call.fillOnce c.guard key (c.fill key ttl fetch) := by
  cases c with
  | near l =>
    change Call.bind _ _ = (Call.bind _ _).bind _
    rw [Call.bind_assoc]
    refine congrArg (Call.bind _) (funext fun b ↦ ?_)
    cases b with
    | true => rfl
    | false =>
      change (l.lookup key).bind _ = ((l.lookup key).bind _).bind _
      rw [Call.bind_assoc]
      refine congrArg (Call.bind _) (funext fun r ↦ ?_)
      cases r <;> rfl
  | far x =>
    change (x.get key).bind _ = ((x.get key).bind _).bind _
    rw [Call.bind_assoc]
    refine congrArg (Call.bind _) (funext fun a ↦ ?_)
    cases a with
    | ok v => rfl
    | error f => cases f <;> rfl
  | layered front x =>
    change Call.bind _ _ = (Call.bind _ _).bind _
    rw [Call.bind_assoc]
    refine congrArg (Call.bind _) (funext fun r ↦ ?_)
    cases r with
    | some v => rfl
    | none =>
      change (x.get key).bind _ = ((x.get key).bind _).bind _
      rw [Call.bind_assoc]
      refine congrArg (Call.bind _) (funext fun a ↦ ?_)
      cases a with
      | error f => rfl
      | ok v =>
        change Call.bind _ _ = (Call.bind _ _).bind _
        rw [Call.bind_assoc]
        rfl

/-! ### What the tiers show is what a call finds -/

section Probe

variable {c key ttl} {h : Heap} {me : Nat}

/-- What a probe may come to: an answer with what the tiers show, or nothing. -/
structure Probed (c : Filler) (h : Heap) (key : String) (r : Option (Answer String)) : Prop where
  found : ∀ v, c.found h key = some v → r = some (.ok v)
  misses : c.Misses h key → r = none

theorem found_of_misses (hmiss : c.Misses h key) : c.found h key = none := by
  cases c with
  | near l => exact hmiss.2
  | far x =>
    rw [found, StoreHandle.shown, Store.text?, hmiss.2]
    exact ite_self none
  | layered front x => rw [found, hmiss.1, hmiss.2, Option.or_none]

theorem probed_value {v : String} (hv : c.found h key = some v) :
    Probed c h key (some (.ok v)) where
  found w hw := by
    rw [hv] at hw
    rw [Option.some.inj hw]
  misses hmiss := by
    rw [found_of_misses hmiss] at hv
    cases hv

theorem probed_nothing (hnone : c.found h key = none) : Probed c h key none where
  found w hw := by
    rw [hnone] at hw
    cases hw
  misses _ := rfl

theorem probed_refused {a : Answer String} (hnone : c.found h key = none)
    (hnot : ¬ c.Misses h key) : Probed c h key (some a) where
  found w hw := by
    rw [hnone] at hw
    cases hw
  misses hmiss := absurd hmiss hnot

/-- A look-up in an open local tier answers what it shows. -/
theorem lookup_of_open {l : LocalHandle} (hopen : (h.tiers.localTier l.cache).closed = false) :
    (LocalCache.lookup h.now key (h.tiers.localTier l.cache)).1 = l.shown h key := by
  rw [LocalHandle.shown, hopen, LocalCache.fst_lookup_eq_view]
  rfl

theorem shown_of_closed {l : LocalHandle} (hclosed : (h.tiers.localTier l.cache).closed = true) :
    l.shown h key = none := if_pos hclosed

/-- What a store answers a read with: the text that it shows, that it is online and holds nothing
live, or another fault. -/
inductive Read (x : StoreHandle) (h : Heap) (key : String) : Answer String → Prop
  | shown {v : String} (hshown : x.shown h key = some v) : Read x h key (.ok v)
  | miss (hnone : x.shown h key = none) : Read x h key (.error .notFound)
  | refused {f : Fault} (hf : f ≠ .notFound) (hnone : x.shown h key = none)
      (hnot : ¬ (far x).Misses h key) : Read x h key (.error f)

theorem atOnce_get (x : StoreHandle) {F : Heap → Prop} :
    (x.get key).AtOnce me h
      (fun a h' ↦ h.Unfetched h' ∧ h'.now = h.now ∧ Read x h key a) F := by
  cases hoffline : (h.tiers.store x.store).offline with
  | true =>
    refine Call.AtOnce.onStore_of_fault (f := .refused) ?_ ⟨.setStore .., rfl, ?_⟩
    · simp only [Store.get, Store.whenOnline, hoffline, if_true]
    · refine .refused (by decide) (by rw [StoreHandle.shown, if_pos hoffline]) fun hmiss ↦ ?_
      rw [hmiss.1] at hoffline
      cases hoffline
  | false =>
    have hget := Store.fst_get hoffline h.now key
    have hshown : x.shown h key = (h.tiers.store x.store).text? h.now key := by
      rw [StoreHandle.shown, hoffline]
      rfl
    rw [Store.text?] at hshown
    cases hlive : (h.tiers.store x.store).live? h.now key with
    | none =>
      rw [hlive] at hget hshown
      exact Call.AtOnce.onStore_of_fault hget ⟨.setStore .., rfl, .miss hshown⟩
    | some y =>
      rw [hlive] at hget hshown
      have hnot : ¬ (far x).Misses h key := by
        rintro ⟨-, habsent⟩
        rw [hlive] at habsent
        cases habsent
      obtain ⟨datum, expiry⟩ := y
      cases datum with
      | text v => exact Call.AtOnce.onStore_of_ok hget ⟨.setStore .., rfl, .shown hshown⟩
      | list items =>
        exact Call.AtOnce.onStore_of_fault hget
          ⟨.setStore .., rfl, .refused (by simp [Fault.wrongKind]) hshown hnot⟩
      | set members =>
        exact Call.AtOnce.onStore_of_fault hget
          ⟨.setStore .., rfl, .refused (by simp [Fault.wrongKind]) hshown hnot⟩

/-- A copy is left where the clock has room for its deadline, and no fetch begins. -/
theorem atOnce_populate {c : Hybrid} {v : String} (hroom : Expiry.after h.now ttl ≠ none) :
    (c.populate key v ttl).AtOnce me h (fun _ h' ↦ h.Unfetched h') fun _ ↦ False :=
  Call.AtOnce.populate (fun _ ↦ .refl h) fun _ ↦
    ⟨fun _ ↦ .setLocal .., fun hoverflow ↦ hroom (LocalCache.after_of_overflow hoverflow)⟩

/-- A copy for a caller that asked for a span is for no longer than any other copy. -/
theorem populationFor_lt {s : HybridSettings} (hs : s.populationSecs < 2 ^ 55) :
    s.populationFor ttl < Clock.secs (2 ^ 55) := by
  unfold HybridSettings.populationFor
  split_ifs
  · exact Hybrid.population_lt hs
  · exact Nat.lt_of_le_of_lt (Nat.min_le_right _ _) (Hybrid.population_lt hs)

/-- A probe finds what the tiers show, and nothing where the call misses. It begins no fetch. -/
theorem atOnce_probe (me : Nat) (key : String) (ttl : Nat) (hc : c.Bounded)
    (hnow : h.now < Clock.secs (2 ^ 63 - 2 ^ 55)) : (c.probe key ttl).AtOnce me h
      (fun r h' ↦ h.Unfetched h' ∧ Probed c h key r) fun _ ↦ False := by
  cases c with
  | near l =>
    refine Call.AtOnce.bind (P := fun b h' ↦ h' = h ∧ (h.tiers.localTier l.cache).closed = b)
      (Call.AtOnce.look ⟨rfl, rfl⟩) fun b h' hb ↦ ?_
    obtain ⟨rfl, hb⟩ := hb
    cases b with
    | true =>
      refine Call.AtOnce.done ⟨.refl h', probed_refused (shown_of_closed hb) fun hmiss ↦ ?_⟩
      rw [hmiss.1] at hb
      cases hb
    | false =>
      refine Call.AtOnce.bind (P := fun r h'' ↦ h'.Unfetched h'' ∧ l.shown h' key = r)
        (Call.AtOnce.onLocal ⟨.setLocal .., (lookup_of_open hb).symm⟩) fun r h'' hr ↦ ?_
      obtain ⟨hsame, hshown⟩ := hr
      cases r with
      | some v => exact Call.AtOnce.done ⟨hsame, probed_value hshown⟩
      | none => exact Call.AtOnce.done ⟨hsame, probed_nothing hshown⟩
  | far x =>
    refine Call.AtOnce.bind (atOnce_get x) fun a h' ha ↦ ?_
    obtain ⟨hsame, -, hread⟩ := ha
    cases hread with
    | shown hshown => exact Call.AtOnce.done ⟨hsame, probed_value hshown⟩
    | miss hnone => exact Call.AtOnce.done ⟨hsame, probed_nothing hnone⟩
    | @refused f hf hnone hnot =>
      have hrefused := probed_refused (c := far x) (a := .error f) hnone hnot
      cases f with
      | notFound => exact absurd rfl hf
      | _ => exact Call.AtOnce.done ⟨hsame, hrefused⟩
  | layered front x =>
    refine Call.AtOnce.bind (P := fun r h' ↦ h.Unfetched h' ∧ h'.now = h.now ∧
      x.shown h' key = x.shown h key ∧ front.near.shown h key = r) ?_ fun r h' hr ↦ ?_
    · refine Call.AtOnce.localHit (fun hclosed ↦ ?_) fun hopen ↦ ?_
      · exact ⟨.refl h, rfl, rfl, shown_of_closed hclosed⟩
      · exact ⟨.setLocal .., rfl, rfl, (lookup_of_open hopen).symm⟩
    obtain ⟨hsame, hnow', hfar, hnear⟩ := hr
    cases r with
    | some v =>
      refine Call.AtOnce.done ⟨hsame, probed_value ?_⟩
      rw [found, hnear, Option.some_or]
    | none =>
      have hfound : (layered front x).found h key = x.shown h' key := by
        rw [found, hnear, Option.none_or, hfar]
      refine Call.AtOnce.bind (atOnce_get x) fun a h'' ha ↦ ?_
      obtain ⟨hsame', hnow'', hread⟩ := ha
      cases hread with
      | @shown v hshown =>
        have hroom : Expiry.after h''.now (front.settings.populationFor ttl) ≠ none := by
          rw [hnow'', hnow']
          exact Expiry.after_ne_none hnow (populationFor_lt hc)
        refine Call.AtOnce.bind (atOnce_populate hroom) fun _ h₃ hsame'' ↦ Call.AtOnce.done ?_
        exact ⟨(hsame.trans hsame').trans hsame'', probed_value (hfound.trans hshown)⟩
      | miss hnone =>
        exact Call.AtOnce.done ⟨hsame.trans hsame', probed_nothing (hfound.trans hnone)⟩
      | refused _ hnone _ =>
        exact Call.AtOnce.done ⟨hsame.trans hsame', probed_nothing (hfound.trans hnone)⟩

/-! ### A call goes on without its fetch -/

/-- A call ends its probe and goes on with what it came to. -/
theorem exists_halt_probe (me : Nat) (key : String) (ttl : Nat) (hc : c.Bounded)
    (hnow : h.now < Clock.secs (2 ^ 63 - 2 ^ 55)) :
    ∃ h' r, (c.probe key ttl).halt me h = (h', .done r) ∧ h.Unfetched h' ∧ Probed c h key r := by
  rcases atOnce_probe me key ttl hc hnow with ⟨h', r, hhalt, hsame, hr⟩ | ⟨_, _, hfail⟩
  · exact ⟨h', r, hhalt, hsame, hr⟩
  · exact hfail.elim

variable {α : Type}

/-- What a call finds it goes on with in the same step, whatever its fetch is. -/
theorem exec_of_found (me ttl : Nat) (k : Answer String → Call α) (hc : c.Bounded)
    (hnow : h.now < Clock.secs (2 ^ 63 - 2 ^ 55)) {v : String} (hv : c.found h key = some v) :
    ∃ h', h.Unfetched h' ∧ ∀ fetch,
      ((c.getOrSet key ttl fetch).bind k).exec me h [] = (k (.ok v)).exec me h' [] := by
  obtain ⟨h', r, hhalt, hsame, hr⟩ := exists_halt_probe me key ttl hc hnow
  refine ⟨h', hsame, fun fetch ↦ ?_⟩
  rw [hr.found v hv] at hhalt
  rw [getOrSet_eq_bind, Call.bind_assoc, Call.exec_eq_enter, Call.exec_eq_enter,
    Call.halt_bind_of_done hhalt]
  rfl

/-- A call that misses turns to the guard in the same step, whatever its fetch is. -/
theorem exec_of_misses (me ttl : Nat) (k : Answer String → Call α) (hc : c.Bounded)
    (hnow : h.now < Clock.secs (2 ^ 63 - 2 ^ 55)) (hmiss : c.Misses h key) :
    ∃ h', h.Unfetched h' ∧ ∀ fetch, ((c.getOrSet key ttl fetch).bind k).exec me h [] =
      (Call.join c.guard key (c.fill key ttl fetch) k).exec me h' [] := by
  obtain ⟨h', r, hhalt, hsame, hr⟩ := exists_halt_probe me key ttl hc hnow
  refine ⟨h', hsame, fun fetch ↦ ?_⟩
  rw [hr.misses hmiss] at hhalt
  rw [getOrSet_eq_bind, Call.bind_assoc, Call.exec_eq_enter, Call.exec_eq_enter,
    Call.halt_bind_of_done hhalt]
  rfl

end Probe

end Filler

end TwoTier
