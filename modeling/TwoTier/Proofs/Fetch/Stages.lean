import TwoTier.Proofs.Fetch.Reading
import TwoTier.Scenario.Calls

/-!
# The stages of a fill

A fill has not begun, or its fetch is under way (`Filler.Stage`). Its next step ends it without a
fetch where a layered cache has come to hold the key; or it begins the fetch, waits for its end, and
ends with it (`Filler.Stage.advanced`). A fetch that fails ends the fill with its own failure, and
no step of such a fill writes to a tier (`Tiers.Unwritten`).
-/

set_option autoImplicit false
set_option relaxedAutoImplicit false

namespace TwoTier

namespace Scenario

/-- The fetch that a plan stands for; its mark is among those that have begun from then on. -/
def Plan.marked (p : Plan) (mark : Nat) : Fetch :=
  p.fetch (Call.modify fun t ↦ { t with begun := mark :: t.begun })

/-- What a fetch that ends like this comes to for all callers. -/
def Ending.outcome : Ending → Answer String
  | value s => .ok s
  | error message => .error (.fetchFailed message)
  | crash => .error .fillFailed

/-- Whether a fetch that ends like this yields no value. -/
def Ending.Fails : Ending → Prop
  | value _ => False
  | _ => True

end Scenario

open Scenario

/-- Nothing was written at a moment: the local tiers show what they showed, and the stores hold what
they held. -/
structure Tiers.Unwritten (now : Nat) (t t' : Tiers) : Prop where
  near : ∀ n key, (t'.localTier n).view now key = (t.localTier n).view now key
  far : ∀ s, (t'.store s).data = (t.store s).data

namespace Tiers.Unwritten

variable {now : Nat} {t t' t'' : Tiers}

theorem refl (t : Tiers) : Unwritten now t t := ⟨fun _ _ ↦ rfl, fun _ ↦ rfl⟩

theorem trans (h : Unwritten now t t') (h' : Unwritten now t' t'') : Unwritten now t t'' :=
  ⟨fun n key ↦ (h'.near n key).trans (h.near n key), fun s ↦ (h'.far s).trans (h.far s)⟩

theorem lookup (t : Tiers) (n : Nat) (key : String) :
    Unwritten now t (t.setLocal n (LocalCache.lookup now key (t.localTier n)).2) where
  near m j := by
    rw [localTier_setLocal]
    split_ifs with hm
    · rw [hm, LocalCache.view_lookup]
    · rfl
  far _ := rfl

theorem release (t : Tiers) (held : List Held) : Unwritten now t (t.release held) where
  near n key := by rw [localTier_release]
  far s := by
    obtain ⟨subscribers, hstore⟩ := retuned_release t held s
    rw [hstore]

end Tiers.Unwritten

namespace Filler

variable (c : Filler) (key : String) (ttl : Nat)

/-- What a fill asks before it fetches: a layered cache asks its local tier once more. -/
def recheck : Call (Option String) :=
  match c with
  | layered front _ => front.near.lookup key
  | _ => return none

/-- Where a fill leaves its value. -/
def keep (v : String) : Call Unit :=
  match c with
  | near l => discard (l.insert key v ttl)
  | far x => discard (x.set key v ttl)
  | layered front x => do
    discard (x.set key v ttl)
    (Hybrid.layered front x).populate key v ttl

/-- What a fill does when its fetch ends. -/
def settle : Ending → Call (Answer String)
  | .value v => do
    c.keep key ttl v
    return .ok v
  | .error message => return .error (.fetchFailed message)
  | .crash => Call.crash

/-- A fill asks, begins its fetch, and settles when the fetch ends. -/
theorem fill_eq_bind (plan : Plan) (mark : Nat) : c.fill key ttl (plan.marked mark) =
    (c.recheck key).bind fun
      | some v => .done (.ok v)
      | none => (Call.modify fun t ↦ { t with begun := mark :: t.begun }).bind fun _ ↦
          (Call.delay plan.delay).bind fun _ ↦ c.settle key ttl plan.ending := by
  have hfetched : ∀ f : Answer String → Call (Answer String),
      (Call.fetched (plan.marked mark)).bind f =
        (Call.modify fun t ↦ { t with begun := mark :: t.begun }).bind fun _ ↦
          (Call.delay plan.delay).bind fun _ ↦
            match plan.ending with
            | .value s => f (.ok s)
            | .error message => f (.error (.fetchFailed message))
            | .crash => .crash := by
    intro f
    change ((Call.bind _ _).bind _).bind f = _
    rw [Call.bind_assoc, Call.bind_assoc]
    refine congrArg (Call.bind _) (funext fun _ ↦ ?_)
    change (Call.bind _ _).bind _ = _
    rw [Call.bind_assoc]
    refine congrArg (Call.bind _) (funext fun _ ↦ ?_)
    cases plan.ending <;> rfl
  cases c with
  | near l =>
    refine (hfetched _).trans (congrArg (Call.bind _) (funext fun _ ↦ ?_))
    refine congrArg (Call.bind _) (funext fun _ ↦ ?_)
    cases plan.ending <;> rfl
  | far x =>
    refine (hfetched _).trans (congrArg (Call.bind _) (funext fun _ ↦ ?_))
    refine congrArg (Call.bind _) (funext fun _ ↦ ?_)
    cases plan.ending <;> rfl
  | layered front x =>
    refine congrArg (Call.bind _) (funext fun r ↦ ?_)
    cases r with
    | some v => rfl
    | none =>
      refine (hfetched _).trans (congrArg (Call.bind _) (funext fun _ ↦ ?_))
      refine congrArg (Call.bind _) (funext fun _ ↦ ?_)
      cases plan.ending with
      | value v =>
        change _ = (Call.bind (Call.bind _ _) _)
        rw [Call.bind_assoc]
        rfl
      | error message => rfl
      | crash => rfl

/-! ### The end of a fetch -/

section Settle

variable (me : Nat) (h : Heap)

theorem atOnce_insert (l : LocalHandle) (v : String) :
    (l.insert key v ttl).AtOnce me h (fun _ _ ↦ True)
      fun _ ↦ Expiry.after h.now ttl = none := by
  refine Call.AtOnce.bind (P := fun r _ ↦ r = .overflow → Expiry.after h.now ttl = none)
    (Call.AtOnce.onLocal LocalCache.after_of_overflow) fun r h' hr ↦ ?_
  cases r with
  | overflow => exact Call.AtOnce.crash (hr rfl)
  | _ => exact Call.AtOnce.done trivial

theorem atOnce_set (x : StoreHandle) (v : String) :
    (x.set key v ttl).AtOnce me h (fun _ h' ↦ h'.now = h.now)
      fun _ ↦ Expiry.after h.now ttl = none := by
  refine Call.AtOnce.onStore (fun _ _ ↦ rfl) (fun _ _ ↦ rfl) fun hoverflow ↦ ?_
  cases hoffline : (h.tiers.store x.store).offline with
  | true =>
    simp only [Store.set, Store.whenOnline, hoffline, if_true] at hoverflow
    cases hoverflow
  | false =>
    rw [Store.set_eq hoffline] at hoverflow
    cases hafter : Expiry.after h.now ttl with
    | none => rfl
    | some e =>
      rw [hafter] at hoverflow
      cases hoverflow

/-- A value is left where it belongs unless its deadline lies beyond the clock. -/
theorem atOnce_keep (v : String) : (c.keep key ttl v).AtOnce me h (fun _ _ ↦ True)
    fun _ ↦ Expiry.after h.now ttl = none := by
  cases c with
  | near l => exact Call.AtOnce.discard (atOnce_insert key ttl me h l v)
  | far x =>
    exact Call.AtOnce.discard
      ((atOnce_set key ttl me h x v).mono (fun _ _ _ ↦ trivial) fun _ hnone ↦ hnone)
  | layered front x =>
    refine Call.AtOnce.bind (Call.AtOnce.discard (atOnce_set key ttl me h x v)) fun _ h' hnow ↦ ?_
    rw [← hnow]
    exact Call.AtOnce.populate (fun _ ↦ trivial) fun _ ↦
      ⟨fun _ ↦ trivial, fun hoverflow ↦ LocalCache.after_of_overflow hoverflow⟩

/-- When its fetch ends a fill ends in the same step. It ends as the fetch did, if the clock has
room for the deadline of a value; one whose fetch failed leaves the heap as it is. -/
theorem exists_halt_settle (ending : Ending) :
    ∃ h' rest o, (c.settle key ttl ending).halt me h = (h', rest) ∧ rest.conclusion? = some o ∧
      (ending.Fails ∨ Expiry.after h.now ttl ≠ none → o.outcome = ending.outcome) ∧
        (ending.Fails → h' = h) := by
  cases ending with
  | value v =>
    rcases c.atOnce_keep key ttl me h v with
      ⟨h', _, hhalt, -⟩ | ⟨h', hhalt, hnone⟩
    · exact ⟨h', _, _, Call.halt_bind_of_done hhalt _, rfl, fun _ ↦ rfl, False.elim⟩
    · exact ⟨h', _, _, Call.halt_bind_of_crash hhalt _, rfl,
        fun hroom ↦ absurd hnone (hroom.resolve_left id), False.elim⟩
  | error message => exact ⟨h, _, _, rfl, rfl, fun _ ↦ rfl, fun _ ↦ rfl⟩
  | crash => exact ⟨h, _, _, rfl, rfl, fun _ ↦ rfl, fun _ ↦ rfl⟩

end Settle

/-! ### Stages -/

/-- How far a fill of a key has come whose fetch goes by a plan. -/
inductive Stage (c : Filler) (key : String) (plan : Plan) : Call (Answer String) → Prop
  /-- It has not begun. -/
  | waiting {ttl : Nat} (httl : ttl < Clock.secs (2 ^ 55)) (mark : Nat) :
      Stage c key plan (.pause (c.fill key ttl (plan.marked mark)))
  /-- Its fetch is under way until a moment. -/
  | fetching {ttl : Nat} (httl : ttl < Clock.secs (2 ^ 55)) (wake : Nat) :
      Stage c key plan (.sleep (some wake) (c.settle key ttl plan.ending))

/-- The value that the local tier of a layered cache shows under a key, also once it has been
closed. -/
def copy? (c : Filler) (h : Heap) (key : String) : Option String :=
  match c with
  | layered front _ => ((h.tiers.localTier front.near.cache).view h.now key).map Prod.fst
  | _ => none

/-- What a step of a fill comes to: the tiers afterwards, and what the fill has yet to do. -/
inductive Advanced (c : Filler) (key : String) (plan : Plan) (h : Heap)
    (code : Call (Answer String)) (t : Tiers) : Call (Answer String) → Prop
  /-- Its fetch does not begin, because the cache has come to hold the key in its local tier. -/
  | held {k : Call (Answer String)} {v : String} (hcode : code = .pause k)
      (hcopy : c.copy? h key = some v) (hbegun : t.begun = h.tiers.begun)
      (hquiet : Tiers.Unwritten h.now h.tiers t) : Advanced c key plan h code t (.done (.ok v))
  /-- Its fetch is under way. -/
  | fetching {ttl wake : Nat} (httl : ttl < Clock.secs (2 ^ 55))
      (hcopy : ∀ k, code = .pause k → c.copy? h key = none) (hlater : h.now < wake)
      (hwake : code = .sleep (some wake) (c.settle key ttl plan.ending) ∨
        wake = Clock.afterDelay h.now plan.delay)
      (hquiet : Tiers.Unwritten h.now h.tiers t) :
      Advanced c key plan h code t (.sleep (some wake) (c.settle key ttl plan.ending))
  /-- Its fetch has ended, and the fill with it. -/
  | fetched {rest : Call (Answer String)} {o : Conclusion (Answer String)}
      (hrest : rest.conclusion? = some o) (hcopy : ∀ k, code = .pause k → c.copy? h key = none)
      (ho : plan.ending.Fails ∨ h.now < Clock.secs (2 ^ 63 - 2 ^ 55) →
        o.outcome = plan.ending.outcome)
      (hquiet : plan.ending.Fails → Tiers.Unwritten h.now h.tiers t) :
      Advanced c key plan h code t rest

section Advanced

variable {c key} {plan : Plan} {h : Heap} {code rest : Call (Answer String)} {t : Tiers}

/-- The fetch of a fill ends. -/
theorem advanced_settle {ttl : Nat} (httl : ttl < Clock.secs (2 ^ 55)) {me : Nat} {h' : Heap}
    (hcopy : ∀ k, code = .pause k → c.copy? h key = none) (hnow : h'.now = h.now)
    (hquiet : Tiers.Unwritten h.now h.tiers h'.tiers) :
    let halted := (c.settle key ttl plan.ending).halt me h'
    Advanced c key plan h code halted.1.tiers halted.2 := by
  obtain ⟨h'', rest, o, hhalt, hrest, ho, hfails⟩ := c.exists_halt_settle key ttl me h' plan.ending
  rw [hhalt]
  refine .fetched hrest hcopy (fun hroom ↦ ho (hroom.imp_right fun hlt ↦ ?_)) fun hf ↦ ?_
  · rw [hnow]
    exact Expiry.after_ne_none hlt httl
  · rw [hfails hf]
    exact hquiet

/-- A fill asks its local tier once more, if it has one. -/
theorem halt_recheck (c : Filler) (key : String) (me : Nat) (h : Heap) :
    ∃ h', (c.recheck key).halt me h = (h', .done (c.copy? h key)) ∧ h.Unfetched h' ∧
      Tiers.Unwritten h.now h.tiers h'.tiers := by
  cases c with
  | near l => exact ⟨h, rfl, .refl h, .refl _⟩
  | far x => exact ⟨h, rfl, .refl h, .refl _⟩
  | layered front x =>
    have hhalt := Call.halt_onLocal me front.near.cache (fun now ↦ LocalCache.lookup now key) h
    rw [LocalCache.fst_lookup_eq_view] at hhalt
    exact ⟨_, hhalt, .setLocal .., .lookup ..⟩

/-- A delay is over at once, or else later. -/
theorem halt_delay (me span : Nat) (h : Heap) (k : Call (Answer String)) :
    (span = 0 ∧ ((Call.delay span).bind fun _ ↦ k).halt me h = k.halt me h) ∨
      (h.now < Clock.afterDelay h.now span ∧ ((Call.delay span).bind fun _ ↦ k).halt me h =
        (h, .sleep (some (Clock.afterDelay h.now span)) k)) := by
  by_cases hspan : span = 0
  · left
    rw [hspan]
    exact ⟨rfl, rfl⟩
  · right
    have hlater : h.now < Clock.afterDelay h.now span := by
      have hring := Clock.le_ring (h.now + min span Clock.longestDelay)
      have hlongest : 0 < Clock.longestDelay := by decide
      unfold Clock.afterDelay
      omega
    refine ⟨hlater, ?_⟩
    rw [Call.delay, if_neg hspan]
    refine if_neg fun hdue ↦ ?_
    have hle : Clock.afterDelay h.now span ≤ h.now := of_decide_eq_true hdue
    omega

/-- What the next step of a fill at a stage comes to. -/
theorem Stage.advanced {ρ : Type} {w : World ρ} (hstage : c.Stage key plan code) (me : Nat) :
    let halted := (w.resume code).halt me w.heap
    c.Advanced key plan w.heap code halted.1.tiers halted.2 := by
  cases hstage with
  | @waiting ttl httl mark =>
    change let halted := (c.fill key ttl (plan.marked mark)).halt me w.heap
      c.Advanced key plan w.heap _ halted.1.tiers halted.2
    rw [fill_eq_bind]
    obtain ⟨h', hhalt, ⟨t, hbegun, rfl⟩, hquiet⟩ := c.halt_recheck key me w.heap
    rw [Call.halt_bind_of_done hhalt]
    cases hcopy : c.copy? w.heap key with
    | some v => exact .held rfl hcopy hbegun hquiet
    | none =>
      -- the fetch begins
      let h₁ : Heap := { w.heap with tiers := { t with begun := mark :: t.begun } }
      have hquiet₁ : Tiers.Unwritten w.heap.now w.heap.tiers h₁.tiers :=
        ⟨hquiet.near, hquiet.far⟩
      change let halted := ((Call.delay plan.delay).bind fun _ ↦
          c.settle key ttl plan.ending).halt me h₁
        c.Advanced key plan w.heap _ halted.1.tiers halted.2
      rcases halt_delay me plan.delay h₁ (c.settle key ttl plan.ending) with
        ⟨-, hdelay⟩ | ⟨hlater, hdelay⟩
      · rw [hdelay]
        exact advanced_settle httl (fun _ _ ↦ hcopy) rfl hquiet₁
      · rw [hdelay]
        exact .fetching httl (fun _ _ ↦ hcopy) hlater (Or.inr rfl) hquiet₁
  | @fetching ttl httl wake =>
    change let halted := (Call.sleep (some wake) (c.settle key ttl plan.ending)).halt me w.heap
      c.Advanced key plan w.heap _ halted.1.tiers halted.2
    rw [Call.halt]
    split_ifs with hdue
    · exact advanced_settle httl (fun k hk ↦ by cases hk) rfl (.refl _)
    · have hlater : w.heap.now < wake := by
        by_contra hle
        exact hdue (decide_eq_true (Nat.le_of_not_lt hle))
      exact .fetching httl (fun k hk ↦ by cases hk) hlater (Or.inl rfl) (.refl _)

end Advanced

end Filler

end TwoTier
