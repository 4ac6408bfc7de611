import TwoTier.Proofs.Listener.Noted
import TwoTier.Tier.Hybrid
import TwoTier.Tier.Store

/-!
# Operations of a hybrid tier, with notes

What is remembered of the operations of a hybrid tier differs from one property to the next; what
the operations do does not. `Hybrid.Notes` are the marks to be left at each of the moments that
count. The operations of a tier with notes (`Hybrid.Noted`) are the operations of the tier where the
marks are left out (`Hybrid.Noted.Links`).

The tier behind may have waits and marks of its own (`Hybrid.Behind`). What concerns the listener of
the tier leaves the marks of the starts and stops of a listener (`Hybrid.notedStartInvalidator`,
`Hybrid.notedStopInvalidator`).
-/

set_option autoImplicit false
set_option relaxedAutoImplicit false

namespace TwoTier

variable {ε α : Type}

namespace Hybrid

/-- A local tier in front of a store. -/
def layered (front : Front) (x : StoreHandle) : Hybrid := ⟨front, x.tier⟩

open Marked (marks call_marks bind_marks)

/-- The marks that the operations of a hybrid tier leave. -/
structure Notes (ε : Type) where
  /-- The local tier has answered a key with a value. -/
  hit : String → String → List (Heap → ε) := fun _ _ ↦ []
  /-- The other tier is about to be asked for a key. -/
  ask : String → List (Heap → ε) := fun _ ↦ []
  /-- A copy of what the other tier has answered is about to be left. -/
  copies : String → String → List (Heap → ε) := fun _ _ ↦ []
  /-- A reading that does not fill is answered. -/
  answered : String → Answer String → List (Heap → ε) := fun _ _ ↦ []
  /-- The other tier has answered the write of a value under a key, for a span. -/
  wrote : String → String → Nat → Answer Unit → List (Heap → ε) := fun _ _ _ _ ↦ []
  /-- The other tier has answered a fill that left a value under a key, for a span. -/
  filled : String → String → Nat → Answer Unit → List (Heap → ε) := fun _ _ _ _ ↦ []
  /-- A key has been removed from the local tier. -/
  cleared : String → List (Heap → ε) := fun _ ↦ []
  /-- The other tier has answered the removal of a key. -/
  deleted : String → Answer Unit → List (Heap → ε) := fun _ _ ↦ []

/-- The operations of the tier behind a hybrid tier, which are those of a tier where their marks are
left out. -/
structure Behind (ε : Type) (r : Tier) where
  /-- A reading. -/
  get : String → Marked ε (Answer String)
  /-- A write. -/
  set : String → String → Nat → Marked ε (Answer Unit)
  /-- A removal. -/
  del : String → Marked ε (Answer Unit)
  call_get : ∀ key, (get key).call = r.get key
  call_set : ∀ key v ttl, (set key v ttl).call = r.set key v ttl
  call_del : ∀ key, (del key).call = r.del key

/-- A tier whose operations leave no marks. -/
def Behind.silent (ε : Type) (r : Tier) : Behind ε r where
  get key := .act (r.get key) .done
  set key v ttl := .act (r.set key v ttl) .done
  del key := .act (r.del key) .done
  call_get _ := Call.bind_done _
  call_set _ _ _ := Call.bind_done _
  call_del _ := Call.bind_done _

/-- A hybrid tier whose operations leave marks. -/
structure Noted (ε : Type) extends Hybrid where
  /-- The operations of the other tier. -/
  behind : Behind ε remote
  /-- The marks. -/
  notes : Notes ε

section Operations

variable (c : Noted ε)

/-- A reading; `miss` is what it does where neither tier answers. A copy of what the other tier
answers is left for `ttl`. -/
def notedRead (key : String) (ttl : Nat) (k : Answer String → Marked ε α)
    (miss : Fault → Marked ε α) : Marked ε α :=
  .act (c.localHit key) fun
    | some v => marks (c.notes.hit key v) (k (.ok v))
    | none => marks (c.notes.ask key) <| (c.behind.get key).bind fun
      | .ok v => marks (c.notes.copies key v) <| .act (c.populate key v ttl) fun _ ↦ k (.ok v)
      | .error f => miss f

/-- A reading that does not fill. -/
def notedGet (key : String) (k : Answer String → Marked ε α) : Marked ε α :=
  notedRead c key c.settings.population (fun a ↦ marks (c.notes.answered key a) (k a)) fun f ↦
    marks (c.notes.answered key (.error f)) (k (.error f))

/-- A write. -/
def notedSet (key v : String) (ttl : Nat) (k : Answer Unit → Marked ε α) : Marked ε α :=
  (c.behind.set key v ttl).bind fun
    | .ok _ =>
      marks (c.notes.wrote key v ttl (.ok ())) <|
        .act (c.populate key v ttl) fun _ ↦ k (.ok ())
    | .error f => marks (c.notes.wrote key v ttl (.error f)) (k (.error f))

/-- A removal. -/
def notedDel (key : String) (k : Answer Unit → Marked ε α) : Marked ε α :=
  .act (discard (c.near.tier.del key)) fun _ ↦
    marks (c.notes.cleared key) <| (c.behind.del key).bind fun a ↦
      marks (c.notes.deleted key a) (k a)

/-- The look-up with which a fill begins. -/
def notedPeek (key : String) (k : Option String → Marked ε α) : Marked ε α :=
  .act (c.near.lookup key) fun
    | some v => marks (c.notes.hit key v) (k (some v))
    | none => k none

/-- A fetched value is left on both tiers, whether they take it or not. -/
def notedKeep (key v : String) (ttl : Nat) (k : Marked ε α) : Marked ε α :=
  (c.behind.set key v ttl).bind fun a ↦
    marks (c.notes.filled key v ttl a) <| .act (c.populate key v ttl) fun _ ↦ k

/-- A fill. -/
def notedFill (key : String) (ttl : Nat) (fetch : Marked ε (Except String String)) :
    Marked ε (Answer String) :=
  notedPeek c key fun
    | some v => .done (.ok v)
    | none => fetch.bind fun
      | .ok v => notedKeep c key v ttl (.done (.ok v))
      | .error source => .done (.error (.fetchFailed source))

/-- A reading that fills. -/
def notedGetOrSet (key : String) (ttl : Nat) (fetch : Marked ε (Except String String))
    (k : Answer String → Marked ε α) : Marked ε α :=
  notedRead c key (c.settings.populationFor ttl) k fun _ ↦
    .join c.guard key (notedFill c key ttl fetch) k

/-! ### What follows them -/

variable {β : Type}

theorem notedRead_bind (key : String) (ttl : Nat) (k : Answer String → Marked ε α)
    (miss : Fault → Marked ε α) (f : α → Marked ε β) :
    (notedRead c key ttl k miss).bind f =
      notedRead c key ttl (fun a ↦ (k a).bind f) fun e ↦ (miss e).bind f := by
  refine congrArg (Marked.act _) (funext fun r ↦ ?_)
  cases r with
  | some v => exact bind_marks _ _ f
  | none =>
    refine (bind_marks _ _ f).trans (congrArg (marks _) ?_)
    refine (Marked.bind_assoc _ _ f).trans (congrArg (Marked.bind _) (funext fun a ↦ ?_))
    cases a with
    | ok v => exact bind_marks _ _ f
    | error e => rfl

theorem notedSet_bind (key v : String) (ttl : Nat) (k : Answer Unit → Marked ε α)
    (f : α → Marked ε β) :
    (notedSet c key v ttl k).bind f = notedSet c key v ttl fun a ↦ (k a).bind f := by
  refine (Marked.bind_assoc _ _ f).trans (congrArg (Marked.bind _) (funext fun a ↦ ?_))
  cases a <;> exact bind_marks _ _ f

theorem notedDel_bind (key : String) (k : Answer Unit → Marked ε α) (f : α → Marked ε β) :
    (notedDel c key k).bind f = notedDel c key fun a ↦ (k a).bind f := by
  refine congrArg (Marked.act _) (funext fun _ ↦ ?_)
  refine (bind_marks _ _ f).trans (congrArg (marks _) ?_)
  exact (Marked.bind_assoc _ _ f).trans
    (congrArg (Marked.bind _) (funext fun _ ↦ bind_marks _ _ f))

theorem notedPeek_bind (key : String) (k : Option String → Marked ε α) (f : α → Marked ε β) :
    (notedPeek c key k).bind f = notedPeek c key fun r ↦ (k r).bind f := by
  refine congrArg (Marked.act _) (funext fun r ↦ ?_)
  cases r with
  | some v => exact bind_marks _ _ f
  | none => rfl

theorem notedKeep_bind (key v : String) (ttl : Nat) (k : Marked ε α) (f : α → Marked ε β) :
    (notedKeep c key v ttl k).bind f = notedKeep c key v ttl (k.bind f) :=
  (Marked.bind_assoc _ _ f).trans (congrArg (Marked.bind _) (funext fun _ ↦ bind_marks _ _ f))

/-! ### Without their notes they are the operations -/

/-- A reading that goes on with `miss` where neither tier answers. -/
theorem call_notedRead (key : String) (ttl : Nat) (k : Answer String → Marked ε α)
    (miss : Fault → Marked ε α) : (notedRead c key ttl k miss).call =
      (c.localHit key).bind fun
        | some v => (k (.ok v)).call
        | none => (c.remote.get key).bind fun
          | .ok v => (c.populate key v ttl).bind fun _ ↦ (k (.ok v)).call
          | .error f => (miss f).call := by
  refine congrArg (Call.bind _) (funext fun r ↦ ?_)
  cases r with
  | some v => exact call_marks _ _
  | none =>
    refine (call_marks _ _).trans ?_
    rw [Marked.call_bind, c.behind.call_get]
    refine congrArg (Call.bind _) (funext fun a ↦ ?_)
    cases a with
    | ok v => exact call_marks _ _
    | error f => rfl

theorem underlies_notedGet (key : String) : (c.get key).Underlies (notedGet c key) := by
  refine fun k ↦ (call_notedRead c key _ _ _).trans ?_
  change _ = (Call.bind _ _).bind _
  rw [Call.bind_assoc]
  refine congrArg (Call.bind _) (funext fun r ↦ ?_)
  cases r with
  | some v => exact call_marks _ _
  | none =>
    change _ = (Call.bind _ _).bind _
    rw [Call.bind_assoc]
    refine congrArg (Call.bind _) (funext fun a ↦ ?_)
    cases a with
    | error f => exact call_marks _ _
    | ok v =>
      change _ = (Call.bind _ _).bind _
      rw [Call.bind_assoc]
      exact congrArg (Call.bind _) (funext fun _ ↦ call_marks _ _)

theorem underlies_notedSet (key v : String) (ttl : Nat) :
    (c.set key v ttl).Underlies (notedSet c key v ttl) := by
  refine fun k ↦ (Marked.call_bind _ _).trans ?_
  change _ = (Call.bind _ _).bind _
  rw [c.behind.call_set, Call.bind_assoc]
  refine congrArg (Call.bind _) (funext fun a ↦ ?_)
  cases a with
  | error f => exact call_marks _ _
  | ok _ =>
    refine (call_marks _ _).trans ?_
    change _ = (Call.bind _ _).bind _
    rw [Call.bind_assoc]
    rfl

theorem underlies_notedDel (key : String) : (c.del key).Underlies (notedDel c key) := by
  intro α k
  change Call.bind _ _ = (Call.bind _ _).bind _
  rw [Call.bind_assoc]
  refine congrArg (Call.bind _) (funext fun _ ↦ (call_marks _ _).trans ?_)
  rw [Marked.call_bind, c.behind.call_del]
  exact congrArg (Call.bind _) (funext fun a ↦ call_marks _ _)

theorem call_notedFill (key : String) (ttl : Nat) (fetch : Marked ε (Except String String)) :
    (notedFill c key ttl fetch).call = c.fill key ttl fetch.call := by
  refine congrArg (Call.bind _) (funext fun r ↦ ?_)
  cases r with
  | some v => exact call_marks _ _
  | none =>
    change (fetch.bind _).call = Call.bind (Call.bind fetch.call _) _
    rw [Marked.call_bind, Call.bind_assoc]
    refine congrArg (Call.bind _) (funext fun a ↦ ?_)
    cases a with
    | error source => rfl
    | ok v =>
      refine (Marked.call_bind _ _).trans ?_
      change _ = (Call.bind _ _).bind _
      rw [c.behind.call_set, Call.bind_assoc]
      exact congrArg (Call.bind _) (funext fun _ ↦ call_marks _ _)

theorem underlies_notedGetOrSet (key : String) (ttl : Nat)
    (fetch : Marked ε (Except String String)) :
    (c.getOrSet key ttl fetch.call).Underlies (notedGetOrSet c key ttl fetch) := by
  refine fun k ↦ (call_notedRead c key _ k _).trans ?_
  change _ = (Call.bind _ _).bind _
  rw [Call.bind_assoc]
  refine congrArg (Call.bind _) (funext fun r ↦ ?_)
  cases r with
  | some v => rfl
  | none =>
    change _ = (Call.bind _ _).bind _
    rw [Call.bind_assoc]
    refine congrArg (Call.bind _) (funext fun a ↦ ?_)
    cases a with
    | ok v =>
      change _ = (Call.bind _ _).bind _
      rw [Call.bind_assoc]
      rfl
    | error f =>
      change Call.join _ _ (notedFill c key ttl fetch).call _ = _
      rw [call_notedFill]
      rfl

/-- The operations of a hybrid tier underlie those with notes. -/
structure Noted.Links (c : Noted ε) : Prop where
  get : ∀ key, (c.get key).Underlies (notedGet c key)
  set : ∀ key v ttl, (c.set key v ttl).Underlies (notedSet c key v ttl)
  del : ∀ key, (c.del key).Underlies (notedDel c key)
  fill : ∀ key ttl fetch, (notedFill c key ttl fetch).call = c.fill key ttl fetch.call
  getOrSet : ∀ key ttl fetch,
    (c.getOrSet key ttl fetch.call).Underlies (notedGetOrSet c key ttl fetch)

theorem Noted.links (c : Noted ε) : c.Links :=
  ⟨underlies_notedGet c, underlies_notedSet c, underlies_notedDel c, call_notedFill c,
    underlies_notedGetOrSet c⟩

end Operations

/-! ### The listener -/

section Listener

variable (c : Hybrid) {β : Type}

/-- What is done while nobody else uses the listener. -/
def locked (k : Option Nat → Marked ε α) : Marked ε α :=
  .acquire (.slot c.id) (.act (Call.look fun h ↦ h.tiers.slots[c.id]?) k)

/-- A start of the listener, given how a listener is started. -/
def notedStartInvalidator (start : Nat → (Answer Unit → Marked ε α) → Marked ε α) (source : Source)
    (k : Answer Unit → Marked ε α) : Marked ε α :=
  locked c fun listener ↦ .act (c.ensureListener source listener) fun l ↦
    start l fun a ↦ .release (.slot c.id) (k a)

/-- A stop of the listener, given how a listener is stopped. -/
def notedStopInvalidator (stop : Nat → (Unit → Marked ε α) → Marked ε α)
    (k : Unit → Marked ε α) : Marked ε α :=
  locked c fun
    | some l => stop l fun a ↦ .release (.slot c.id) (k a)
    | none => .release (.slot c.id) (k ())

/-- What is shown about the listener, and what where there is none. -/
def notedShow (f : Nat → Heap → β) (b : β) (k : β → Marked ε α) : Marked ε α :=
  locked c fun
    | some l => .act (Call.look (f l)) fun b ↦ .release (.slot c.id) (k b)
    | none => .release (.slot c.id) (k b)

/-- The stage of the listener is asked for. -/
def notedState (k : ListenerState → Marked ε α) : Marked ε α :=
  notedShow c (fun l h ↦ (h.tiers.listener l).state) .stopped k

/-- A measurement of both tiers, of the fills and of the listener. -/
def notedStats (k : Snapshot → Marked ε α) : Marked ε α :=
  .act c.near.stats fun near ↦ .act c.remote.stats fun remote ↦
    .act (Call.look fun h ↦ h.guard c.guard) fun guard ↦
      let s := guard.extend
        (Snapshot.ofList [("local", .ofSnapshot near), ("remote", .ofSnapshot remote)])
      notedShow c (fun l h ↦ s.insert "invalidation" (.ofSnapshot (h.tiers.listener l).stats)) s k

/-- The end of the use of the tier, given how a listener is stopped. -/
def notedClose (stop : Nat → (Unit → Marked ε α) → Marked ε α) (k : Answer Unit → Marked ε α) :
    Marked ε α :=
  notedStopInvalidator c stop fun _ ↦ .act (discard c.near.tier.close) fun _ ↦
    .act c.remote.close k

theorem call_locked {call : Option Nat → Call β} {m : Option Nat → Marked ε α}
    {k : β → Marked ε α}
    (hm : ∀ listener, (m listener).call =
      (call listener).bind fun b ↦ .release (.slot c.id) (k b).call) :
    (locked c m).call = (c.withListener call).bind fun b ↦ (k b).call := by
  refine congrArg (Call.acquire _) (congrArg Call.read (funext fun h ↦ ?_))
  change (m h.tiers.slots[c.id]?).call = ((call h.tiers.slots[c.id]?).bind _).bind _
  rw [hm, Call.bind_assoc]
  rfl

theorem call_notedShow (f : Nat → Heap → β) (b : β) (k : β → Marked ε α) :
    (notedShow c f b k).call = (c.withListener fun
      | some l => Call.look (f l)
      | none => return b).bind fun a ↦ (k a).call := by
  refine call_locked c fun listener ↦ ?_
  cases listener <;> rfl

theorem underlies_notedState : c.invalidatorState.Underlies (notedState c (ε := ε)) :=
  fun k ↦ call_notedShow c _ _ k

theorem underlies_notedStats : c.stats.Underlies (notedStats c (ε := ε)) := by
  intro α k
  change Call.bind _ _ = (Call.bind _ _).bind _
  rw [Call.bind_assoc]
  refine congrArg (Call.bind _) (funext fun near ↦ ?_)
  change Call.bind _ _ = (Call.bind _ _).bind _
  rw [Call.bind_assoc]
  refine congrArg (Call.bind _) (funext fun remote ↦ congrArg Call.read (funext fun h ↦ ?_))
  exact call_notedShow c _ _ k

variable {c}

theorem notedClose_bind (stop : ∀ {α : Type}, Nat → (Unit → Marked ε α) → Marked ε α)
    (hstop : ∀ l k (f : α → Marked ε β), (stop l k).bind f = stop l fun a ↦ (k a).bind f)
    (k : Answer Unit → Marked ε α) (f : α → Marked ε β) :
    (notedClose c stop k).bind f = notedClose c stop fun a ↦ (k a).bind f := by
  refine congrArg (Marked.acquire _) (congrArg (Marked.act _) (funext fun listener ↦ ?_))
  cases listener with
  | none => rfl
  | some l => exact hstop l _ f

theorem underlies_notedStartInvalidator
    {start : ∀ {α : Type}, Nat → (Answer Unit → Marked ε α) → Marked ε α}
    (hstart : ∀ l, (Listener.start l).Underlies (start l)) (source : Source) :
    (c.startInvalidator source).Underlies (notedStartInvalidator c start source) := by
  refine fun k ↦ call_locked c fun listener ↦ ?_
  change (c.ensureListener source listener).bind _ =
    ((c.ensureListener source listener).bind _).bind _
  rw [Call.bind_assoc]
  exact congrArg _ (funext fun l ↦ hstart l _)

theorem underlies_notedStopInvalidator
    {stop : ∀ {α : Type}, Nat → (Unit → Marked ε α) → Marked ε α}
    (hstop : ∀ l, (Listener.stop l).Underlies (stop l)) :
    c.stopInvalidator.Underlies (notedStopInvalidator c stop) := by
  refine fun k ↦ call_locked c fun listener ↦ ?_
  cases listener with
  | none => rfl
  | some l => exact hstop l _

theorem underlies_notedClose
    {stop : ∀ {α : Type}, Nat → (Unit → Marked ε α) → Marked ε α}
    (hstop : ∀ l, (Listener.stop l).Underlies (stop l)) :
    c.close.Underlies (notedClose c stop) := by
  refine fun k ↦ (underlies_notedStopInvalidator hstop _).trans ?_
  change _ = (Call.bind _ _).bind _
  rw [Call.bind_assoc]
  refine congrArg (Call.bind _) (funext fun _ ↦ ?_)
  change Call.bind _ _ = (Call.bind _ _).bind _
  rw [Call.bind_assoc]
  rfl

end Listener

end Hybrid

end TwoTier
