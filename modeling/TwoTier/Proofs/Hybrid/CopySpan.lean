import TwoTier.Proofs.Hybrid.Transparency
import TwoTier.Proofs.Local.View

/-!
# How long the copy of a read stays

A read that misses the local tier and is answered by the other one leaves a copy, for the span that
the caller asked for or for that of all copies, whichever is less (`HybridSettings.populationFor`).
The zero span is the least of all, and it is the one that never ends. So where copies are configured
to stay for ever, the copy of a caller who asked for a limited span stays for ever too: the copy
respects the span that was asked for exactly where copies have a limited span of their own.

The main result is `Hybrid.copy_ends_iff`: it holds of every state of the local tier, of every other
tier, also one that answers late, and whatever the local tier makes of the copy.
-/

set_option autoImplicit false
set_option relaxedAutoImplicit false

namespace TwoTier

namespace HybridSettings

variable (s : HybridSettings) {ttl : Nat}

theorem population_eq_zero_iff : s.population = 0 ↔ s.populationSecs = 0 := by
  unfold population Clock.secs
  omega

/-- For a limited span that is asked for, a copy gets a span no greater. -/
theorem populationFor_le (httl : 0 < ttl) :
    s.populationFor ttl ≤ ttl ∧ s.populationFor ttl ≤ s.population := by
  rw [populationFor, if_neg (Nat.pos_iff_ne_zero.mp httl)]
  exact ⟨Nat.min_le_left _ _, Nat.min_le_right _ _⟩

/-- The least of a limited span and the span of all copies is zero, which is no limit, exactly where
the latter is. -/
theorem populationFor_eq_zero_iff (httl : 0 < ttl) :
    s.populationFor ttl = 0 ↔ s.populationSecs = 0 := by
  rw [← s.population_eq_zero_iff, populationFor, if_neg (Nat.pos_iff_ne_zero.mp httl)]
  omega

end HybridSettings

namespace LocalCache

/-- What is left of an accepted insertion at any later moment. -/
theorem view_insert_of_accepted {now t ttl : Nat} (hle : now ≤ t) {key value : String}
    {c : LocalCache} {x : Expiry} (hx : Expiry.after now ttl = some x)
    (haccepted : (c.insert now key value ttl).1.accepted = true) :
    (c.insert now key value ttl).2.view t key =
      if x.live t = true then some (value, x) else none := by
  rw [view_of_le hle, view_insert, if_pos ⟨rfl, haccepted⟩, hx, Option.map_some,
    Option.filter_some]

/-- An insertion that stores nothing, and does not fail, was refused, and leaves no entry. -/
theorem get?_insert_of_not_accepted {now ttl : Nat} {key value : String} {c : LocalCache}
    {x : Expiry} (hx : Expiry.after now ttl = some x)
    (hnot : (c.insert now key value ttl).1.accepted = false) :
    (c.insert now key value ttl).2.table.get? key = none := by
  have hinserted := (get?_insert now key value ttl c).1
  generalize hend : (c.insert now key value ttl).1 = ending at hinserted hnot
  cases hinserted with
  | added => exact absurd hnot (by simp [Insertion.accepted])
  | updated => exact absurd hnot (by simp [Insertion.accepted])
  | rejected _ hafter => exact hafter
  | overflow _ hexpiry =>
    rw [hexpiry] at hx
    exact absurd hx (Option.some_ne_none x).symm

end LocalCache

namespace Hybrid

variable (c : Hybrid) (key : String) (ttl : Nat) (fetch : Fetch)

/-- How a read that missed the local tier goes on with what the other tier answered. -/
def onAnswer : Answer String → Call (Answer String)
  | .ok v => do
    c.populate key v (c.settings.populationFor ttl)
    return .ok v
  | .error _ => Call.fillOnce c.guard key (c.fill key ttl fetch)

theorem getOrSet_eq : c.getOrSet key ttl fetch = (c.localHit key).bind fun
    | some v => .done (.ok v)
    | none => (c.remote.get key).bind (c.onAnswer key ttl fetch) := by
  change Call.bind _ _ = _
  refine congrArg (Call.bind _) (funext fun r ↦ ?_)
  cases r with
  | some v => rfl
  | none =>
    change Call.bind _ _ = _
    refine congrArg (Call.bind _) (funext fun a ↦ ?_)
    cases a <;> rfl

variable {c key ttl fetch} {me : Nat} {h h' : Heap} {v : String}

/-- A read that misses the local tier asks the other one. -/
theorem halt_getOrSet_of_miss (hmiss : (c.localHit key).halt me h = (h', .done none)) :
    (c.getOrSet key ttl fetch).halt me h =
      ((c.remote.get key).bind (c.onAnswer key ttl fetch)).halt me h' := by
  rw [getOrSet_eq, Call.halt_bind_of_done hmiss]

/-- The local tier after a copy was offered to it. -/
def offered (now : Nat) (key v : String) (ttl : Nat) (l : LocalCache) : LocalCache :=
  if l.closed then l else (l.insert now key v ttl).2

/-- A copy is offered to the local tier in one step. -/
theorem halt_populate (c : Hybrid) (key v : String) (me : Nat)
    (hroom : Expiry.after h.now ttl ≠ none) :
    ∃ h', (c.populate key v ttl).halt me h = (h', .done ()) ∧
      h'.tiers.localTier c.near.cache =
        offered h.now key v ttl (h.tiers.localTier c.near.cache) := by
  have hoffered : (c.populate key v ttl).AtOnce me h
      (fun _ h' ↦ h'.tiers.localTier c.near.cache =
        offered h.now key v ttl (h.tiers.localTier c.near.cache)) fun _ ↦ False := by
    refine Call.AtOnce.populate (fun hclosed ↦ (if_pos hclosed).symm) fun hopen ↦
      ⟨fun _ ↦ ?_, fun hoverflow ↦ hroom (LocalCache.after_of_overflow hoverflow)⟩
    rw [offered, hopen, Tiers.localTier_setLocal, if_pos rfl]
    rfl
  rcases hoffered with ⟨h', u, hhalt, htier⟩ | ⟨h', -, hfalse⟩
  · exact ⟨h', hhalt, htier⟩
  · exact hfalse.elim

/-- Where the other tier answers, in whichever step, the read ends in that step with its answer, and
has offered a copy to the local tier. -/
theorem halt_onAnswer (key : String) (fetch : Fetch) {asked : Call (Answer String)}
    (hasked : asked.halt me h = (h', .done (.ok v)))
    (hroom : Expiry.after h.now (c.settings.populationFor ttl) ≠ none) :
    ∃ h'', (asked.bind (c.onAnswer key ttl fetch)).halt me h = (h'', .done (.ok v)) ∧
      h''.tiers.localTier c.near.cache =
        offered h.now key v (c.settings.populationFor ttl)
          (h'.tiers.localTier c.near.cache) := by
  have hnow : h'.now = h.now := by
    have hkept := (Call.halt_kept me asked h).2.2
    rw [hasked] at hkept
    exact hkept
  rw [← hnow] at hroom ⊢
  obtain ⟨h'', hhalt, htier⟩ := halt_populate c key v me hroom
  refine ⟨h'', ?_, htier⟩
  rw [Call.halt_bind_of_done hasked]
  exact Call.halt_bind_of_done hhalt _

/-- The clock has room for the deadline of a copy. -/
theorem after_populationFor_ne_none (hpopulation : c.settings.populationSecs < 2 ^ 55)
    (httl : ttl < Clock.secs (2 ^ 55)) (hnow : h.now < Clock.secs (2 ^ 63 - 2 ^ 55)) :
    Expiry.after h.now (c.settings.populationFor ttl) ≠ none := by
  refine Expiry.after_ne_none hnow ?_
  unfold HybridSettings.populationFor
  split_ifs
  · exact population_lt hpopulation
  · exact Nat.lt_of_le_of_lt (Nat.min_le_left _ _) httl

/-- Whether a copy is gone once the span that was asked for is over, and once that of all copies is
over where this has an end. -/
def EndsInTime (c : Hybrid) (key : String) (ttl start : Nat) (l : LocalCache) : Prop :=
  (∀ t, start + ttl ≤ t → l.contains t key = false) ∧
    (c.settings.populationSecs ≠ 0 →
      ∀ t, start + c.settings.population ≤ t → l.contains t key = false)

/-- A copy that was taken ends in time exactly where copies have a limited span of their own; else
it is there at every later moment. -/
theorem endsInTime_insert_iff (hpos : 0 < ttl) {now : Nat} {l : LocalCache} {x : Expiry}
    (hx : Expiry.after now (c.settings.populationFor ttl) = some x)
    (haccepted : (l.insert now key v (c.settings.populationFor ttl)).1.accepted = true) :
    let copied := (l.insert now key v (c.settings.populationFor ttl)).2
    (c.EndsInTime key ttl now copied ↔ c.settings.populationSecs ≠ 0) ∧
      (c.settings.populationSecs = 0 → ∀ t, now ≤ t → copied.contains t key = true) := by
  intro copied
  obtain ⟨hleTtl, hlePopulation⟩ := c.settings.populationFor_le hpos
  have hzero := c.settings.populationFor_eq_zero_iff hpos
  have hcontains (t : Nat) (ht : now ≤ t) : copied.contains t key = true ↔
      c.settings.populationFor ttl = 0 ∨ t < now + c.settings.populationFor ttl := by
    rw [LocalCache.contains_eq_view, LocalCache.view_insert_of_accepted ht hx haccepted,
      ← Expiry.live_after_iff hx]
    split_ifs with hlive <;> simp [hlive]
  refine ⟨⟨fun hends hnone ↦ ?_, fun hsome ↦ ⟨fun t ht ↦ ?_, fun _ t ht ↦ ?_⟩⟩, fun hnone t ht ↦ ?_⟩
  · have hgone := hends.1 (now + ttl) (Nat.le_refl _)
    have hheld := (hcontains (now + ttl) (Nat.le_add_right _ _)).mpr (Or.inl (hzero.mpr hnone))
    exact Bool.false_ne_true (hgone.symm.trans hheld)
  · rw [Bool.eq_false_iff, ne_eq, hcontains t (by omega), hzero]
    omega
  · rw [Bool.eq_false_iff, ne_eq, hcontains t (by omega), hzero]
    omega
  · exact (hcontains t ht).mpr (Or.inl (hzero.mpr hnone))

/-- A read that misses the local tier asks the other one. When that answers with a value, the read
ends with it, and the local tier has been offered a copy. A closed tier takes none. Where the copy
is refused, the key is absent. Where it is taken, it ends in time exactly if the span of all copies
has an end; if that has none, the copy is there at every later moment. -/
theorem copy_ends_iff (c : Hybrid) (key : String) (fetch : Fetch) (me : Nat) {ttl : Nat}
    (hpopulation : c.settings.populationSecs < 2 ^ 55) (hpos : 0 < ttl)
    (httl : ttl < Clock.secs (2 ^ 55)) :
    (∀ h h', (c.localHit key).halt me h = (h', .done none) →
      (c.getOrSet key ttl fetch).halt me h =
        ((c.remote.get key).bind (c.onAnswer key ttl fetch)).halt me h') ∧
    ∀ (asked : Call (Answer String)) (h h' : Heap) (v : String),
      h.now < Clock.secs (2 ^ 63 - 2 ^ 55) → asked.halt me h = (h', .done (.ok v)) →
      ∃ h'', (asked.bind (c.onAnswer key ttl fetch)).halt me h = (h'', .done (.ok v)) ∧
        let before := h'.tiers.localTier c.near.cache
        let after := h''.tiers.localTier c.near.cache
        let r := before.insert h.now key v (c.settings.populationFor ttl)
        (before.closed = true → after = before) ∧
        (before.closed = false → after = r.2 ∧
          (r.1.accepted = false → ∀ t, after.contains t key = false) ∧
          (r.1.accepted = true →
            (c.EndsInTime key ttl h.now after ↔ c.settings.populationSecs ≠ 0) ∧
            (c.settings.populationSecs = 0 → ∀ t, h.now ≤ t → after.contains t key = true))) := by
  refine ⟨fun h h' hmiss ↦ halt_getOrSet_of_miss hmiss, fun asked h h' v hnow hasked ↦ ?_⟩
  have hroom := after_populationFor_ne_none (c := c) hpopulation httl hnow
  obtain ⟨x, hx⟩ := Option.ne_none_iff_exists'.mp hroom
  obtain ⟨h'', hhalt, htier⟩ := halt_onAnswer key fetch hasked hroom
  refine ⟨h'', hhalt, fun hclosed ↦ htier.trans (if_pos hclosed), fun hopen ↦ ?_⟩
  have hafter : h''.tiers.localTier c.near.cache =
      ((h'.tiers.localTier c.near.cache).insert h.now key v (c.settings.populationFor ttl)).2 := by
    rw [htier, offered, hopen]
    rfl
  refine ⟨hafter, fun hrefused t ↦ ?_, fun haccepted ↦ ?_⟩
  · rw [hafter, LocalCache.contains, LocalCache.get?_insert_of_not_accepted hx hrefused]
  · rw [hafter]
    exact endsInTime_insert_iff hpos hx haccepted

/-- A read asks for ten milliseconds where copies stay for a minute: its copy is gone after ten
milliseconds. -/
theorem copy_ends_of_limited_copies :
    let front : Front := ⟨0, ⟨0, 0⟩, 1, { (default : HybridSettings) with populationSecs := 60 }⟩
    let c := layered front ⟨0, 2⟩
    let ttl := Clock.millis 10
    let tiers := (Tiers.empty.setLocal 0 (.create ⟨fun _ ↦ 0, id⟩ ⟨2, .random, 1⟩)).setStore 0
      (Store.set 0 "k" "v" 0 .empty).2
    let h : Heap := { Heap.initial with tiers := tiers }
    c.settings.populationSecs < 2 ^ 55 ∧ 0 < ttl ∧ ttl < Clock.secs (2 ^ 55) ∧
      ∃ h', (c.getOrSet "k" ttl (.done (.ok "x"))).halt 0 h = (h', .done (.ok "v")) ∧
        c.EndsInTime "k" ttl 0 (h'.tiers.localTier 0) := by
  intro front c ttl tiers h
  have hpopulation : c.settings.populationSecs < 2 ^ 55 := by decide
  have hpos : 0 < ttl := by decide
  have httl : ttl < Clock.secs (2 ^ 55) := by decide
  obtain ⟨hmiss, hanswer⟩ :=
    copy_ends_iff c "k" (.done (.ok "x")) 0 hpopulation hpos httl
  let looked := ((c.localHit "k").halt 0 h).1
  let read := ((c.remote.get "k").halt 0 looked).1
  have hlooked : (c.localHit "k").halt 0 h = (looked, .done none) := rfl
  have hread : (c.remote.get "k").halt 0 looked = (read, .done (.ok "v")) := rfl
  obtain ⟨h', hhalt, -, hopen⟩ := hanswer (c.remote.get "k") looked read "v" (by decide) hread
  obtain ⟨-, -, haccepted⟩ := hopen (by decide)
  exact ⟨hpopulation, hpos, httl, h', (hmiss h looked hlooked).trans hhalt,
    (haccepted (by decide)).1.mpr (by decide)⟩

/-- The same read where copies stay for ever: its copy is there after ten milliseconds. -/
theorem not_endsInTime_of_unlimited_copies :
    let front : Front := ⟨0, ⟨0, 0⟩, 1, { (default : HybridSettings) with populationSecs := 0 }⟩
    let c := layered front ⟨0, 2⟩
    let ttl := Clock.millis 10
    let tiers := (Tiers.empty.setLocal 0 (.create ⟨fun _ ↦ 0, id⟩ ⟨2, .random, 1⟩)).setStore 0
      (Store.set 0 "k" "v" 0 .empty).2
    let h : Heap := { Heap.initial with tiers := tiers }
    let r := (c.getOrSet "k" ttl (.done (.ok "x"))).halt 0 h
    r.2.conclusion? = some (.answer (.ok "v")) ∧
      (r.1.tiers.localTier 0).contains ttl "k" = true ∧
      ¬ c.EndsInTime "k" ttl 0 (r.1.tiers.localTier 0) := by
  intro front c ttl tiers h r
  have hheld : (r.1.tiers.localTier 0).contains ttl "k" = true := by decide
  refine ⟨by decide, hheld, fun hends ↦ ?_⟩
  have hgone := hends.1 ttl (Nat.le_of_eq (Nat.zero_add ttl))
  exact Bool.false_ne_true (hgone.symm.trans hheld)

end Hybrid

end TwoTier
