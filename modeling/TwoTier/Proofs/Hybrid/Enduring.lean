import TwoTier.Proofs.Engine.Endings
import TwoTier.Proofs.Fetch.Reading
import TwoTier.Proofs.Guard.Callers
import TwoTier.Tier.Server

/-!
# The parts of a call that fills, over any other tier

A call for a key of a hybrid tier asks both tiers first (`Hybrid.consult`) and goes on by what it
was told (`Hybrid.conclude`); a fill asks the local tier once more and fetches (`Hybrid.attempt`),
offers what was fetched to the other tier (`Hybrid.offer`), and settles (`Hybrid.settle`). Neither
depends on what the other tier is.

The other tier may fail in any way and take any time, as long as it does not bring its callers down
with it (`Tier.Endures`). Stores of this process and stores over the network are such tiers,
whatever becomes of them (`StoreHandle.endures`, `ServerHandle.endures`), and so is a hybrid tier
over one (`Hybrid.endures`).
-/

set_option autoImplicit false
set_option relaxedAutoImplicit false

namespace TwoTier

/-- Below this moment there is room for the deadline of whatever is kept for less than 2^55 seconds.
-/
def Clock.ample : Nat := Clock.secs (2 ^ 63 - 2 ^ 55)

/-- A tier whose reads and writes of texts come back with an answer or a failure, if they come back:
none of them ends its caller. -/
structure Tier.Endures (t : Tier) : Prop where
  get : ∀ key, (t.get key).EndsIn Clock.ample fun _ ↦ True
  set : ∀ key v ttl, ttl < Clock.secs (2 ^ 55) → (t.set key v ttl).EndsIn Clock.ample fun _ ↦ True

/-! ### Tiers that endure -/

theorem Store.get_ne_overflow (now : Nat) (key : String) (x : Store) :
    (Store.get now key x).1 ≠ .overflow := by
  unfold Store.get Store.whenOnline
  split
  · exact nofun
  · dsimp only
    split <;> exact nofun

theorem Store.set_ne_overflow {now ttl : Nat} (hroom : Expiry.after now ttl ≠ none)
    (key value : String) (x : Store) : (Store.set now key value ttl x).1 ≠ .overflow := by
  unfold Store.set Store.whenOnline
  split
  · exact nofun
  · dsimp only
    split
    · exact nofun
    · rename_i hnone
      exact absurd hnone hroom

/-- A store of this process, online or offline. -/
theorem StoreHandle.endures (x : StoreHandle) : x.tier.Endures where
  get key := .onStore (fun now y _ ↦ Store.get_ne_overflow now key y) fun _ ↦ trivial
  set key v _ httl := .onStore
    (fun _ y hnow ↦ Store.set_ne_overflow (Expiry.after_ne_none hnow httl) key v y) fun _ ↦ trivial

namespace ServerHandle

variable {α : Type} (s : ServerHandle)

theorem endsIn_transmit (limit : Option Nat) (send : Peer → Reaction × Peer) :
    (s.transmit limit send).EndsIn Clock.ample fun _ ↦ True := by
  have hexpire : ∀ n, (s.expire n : Call (Answer Reply)).EndsIn Clock.ample fun _ ↦ True :=
    fun n ↦ Call.EndsIn.bind (P := fun _ ↦ True) (.atomically fun _ _ ↦ trivial)
      fun _ _ ↦ trivial
  refine Call.EndsIn.bind (P := fun _ ↦ True) (.look fun _ _ ↦ trivial) fun closed _ ↦ ?_
  cases closed with
  | true => exact trivial
  | false =>
    refine Call.EndsIn.bind (P := fun _ ↦ True) (.look fun _ _ ↦ trivial) fun deadline _ ↦ ?_
    refine Call.EndsIn.bind (P := fun _ ↦ True) trivial fun _ _ ↦ ?_
    refine Call.EndsIn.bind (P := fun _ ↦ True) (.atomically fun _ _ ↦ trivial) fun reaction _ ↦ ?_
    split
    · exact hexpire _
    · exact trivial
    · exact trivial
    · exact hexpire _

theorem endsIn_query (limit : Option Nat) (command : List String) (read : Reply → Option α) :
    (s.query limit command read).EndsIn Clock.ample fun _ ↦ True := by
  refine Call.EndsIn.bind (s.endsIn_transmit limit _) fun a _ ↦ ?_
  cases a <;> exact trivial

/-- A store over the network, whatever its peer does. -/
theorem endures : s.tier.Endures where
  get key := by
    refine Call.EndsIn.bind (P := fun _ ↦ True) ?_ fun a _ ↦ ?_
    · exact Call.EndsIn.bind (P := fun _ ↦ True) (.look fun _ _ ↦ trivial)
        fun _ _ ↦ s.endsIn_query _ _ _
    · cases a with
      | error f => exact trivial
      | ok v =>
        cases v <;> exact Call.EndsIn.bind (P := fun _ ↦ True) (.atomically fun _ _ ↦ trivial)
          fun _ _ ↦ trivial
  set key v ttl _ := Call.EndsIn.bind (P := fun _ ↦ True) (.look fun _ _ ↦ trivial)
    fun _ _ ↦ s.endsIn_query _ _ _

end ServerHandle

namespace Hybrid

variable (c : Hybrid)

/-! ### The parts of a call -/

/-- What both tiers say of a key: the value that the local tier holds, or what the other tier
answers. -/
def consult (key : String) : Call (String ⊕ Answer String) := do
  match ← c.localHit key with
  | some v => return .inl v
  | none => return .inr (← c.remote.get key)

/-- How a call goes on by what it was told. -/
def conclude (key : String) (ttl : Nat) (fetch : Fetch) :
    String ⊕ Answer String → Call (Answer String)
  | .inl v => return .ok v
  | .inr (.ok v) => do
    c.populate key v (c.settings.populationFor ttl)
    return .ok v
  | .inr (.error _) => Call.fillOnce c.guard key (c.fill key ttl fetch)

/-- What a fill has found: the value that the local tier has come to hold, or how its fetch has
ended. -/
def attempt (key : String) (fetch : Fetch) : Call (String ⊕ Except String String) := do
  match ← c.near.lookup key with
  | some v => return .inl v
  | none => return .inr (← fetch)

/-- What the other tier is given of it. -/
def offer (key : String) (ttl : Nat) : String ⊕ Except String String → Call Unit
  | .inr (.ok v) => discard (c.remote.set key v ttl)
  | _ => return ()

/-- What all callers are answered. -/
def yield : String ⊕ Except String String → Answer String
  | .inl v => .ok v
  | .inr (.ok v) => .ok v
  | .inr (.error source) => .error (.fetchFailed source)

/-- How a fill ends when the other tier has been given what there is for it. -/
def settle (key : String) (ttl : Nat) : String ⊕ Except String String → Call (Answer String)
  | .inr (.ok v) => do
    c.populate key v ttl
    return yield (.inr (.ok v))
  | x => return yield x

/-- What a fill does until it settles. -/
def procure (key : String) (ttl : Nat) (fetch : Fetch) : Call (String ⊕ Except String String) :=
  (c.attempt key fetch).bind fun x ↦ (c.offer key ttl x).bind fun _ ↦ .done x

theorem getOrSet_eq_bind (key : String) (ttl : Nat) (fetch : Fetch) :
    c.getOrSet key ttl fetch = (c.consult key).bind (c.conclude key ttl fetch) := by
  refine Eq.trans (congrArg (Call.bind _) (funext fun r ↦ ?_)) (Call.bind_assoc _ _ _).symm
  cases r with
  | some v => rfl
  | none =>
    refine Eq.trans (congrArg (Call.bind _) (funext fun a ↦ ?_)) (Call.bind_assoc _ _ _).symm
    cases a <;> rfl

theorem fill_eq_bind (key : String) (ttl : Nat) (fetch : Fetch) :
    c.fill key ttl fetch = (c.procure key ttl fetch).bind (c.settle key ttl) := by
  refine Eq.trans (congrArg (Call.bind _) (funext fun r ↦ ?_))
    ((Call.bind_assoc _ _ _).trans (Call.bind_assoc _ _ _)).symm
  cases r with
  | some v => rfl
  | none =>
    refine Eq.trans (Call.bind_assoc _ _ _)
      (Eq.trans (congrArg (Call.bind fetch) (funext fun r ↦ ?_)) (Call.bind_assoc _ _ _).symm)
    cases r with
    | error source => rfl
    | ok v =>
      exact (Call.bind_assoc (c.offer key ttl (.inr (.ok v))) (fun _ ↦ .done (.inr (.ok v)))
        (c.settle key ttl)).symm

/-! ### With what the parts end -/

section Endings

variable {c} {key : String} {ttl : Nat}

theorem endsIn_localHit (limit : Nat) : (c.localHit key).EndsIn limit fun _ ↦ True := by
  refine Call.EndsIn.bind (P := fun _ ↦ True) (.whenOpen trivial ?_) fun a _ ↦ ?_
  · refine Call.EndsIn.bind (P := fun _ ↦ True) (.onLocal fun _ _ _ ↦ trivial) fun r _ ↦ ?_
    cases r <;> exact trivial
  · cases a <;> exact trivial

theorem endsIn_populate (httl : ttl < Clock.secs (2 ^ 55)) (v : String) :
    (c.populate key v ttl).EndsIn Clock.ample fun _ ↦ True := by
  refine Call.EndsIn.discard (P := fun _ ↦ True) (.whenOpen trivial ?_)
  refine Call.EndsIn.bind (.discard (P := fun _ ↦ True) ?_) fun _ _ ↦ trivial
  refine Call.EndsIn.bind (P := (· ≠ .overflow)) (.onLocal fun now x hnow hoverflow ↦ ?_)
    fun r hr ↦ ?_
  · exact Expiry.after_ne_none hnow httl (LocalCache.after_of_overflow hoverflow)
  · cases r with
    | overflow => exact absurd rfl hr
    | _ => exact trivial

/-- A call comes back from both tiers, if it comes back. -/
theorem endsIn_consult (key : String) (hremote : c.remote.Endures) :
    (c.consult key).EndsIn Clock.ample fun _ ↦ True := by
  refine Call.EndsIn.bind (endsIn_localHit _) fun r _ ↦ ?_
  cases r with
  | some v => exact trivial
  | none => exact (hremote.get key).bind fun _ _ ↦ trivial

/-- What was found is kept while the other tier is given it. -/
theorem endsIn_offer (key : String) (hremote : c.remote.Endures)
    (httl : ttl < Clock.secs (2 ^ 55)) (x : String ⊕ Except String String) :
    ((c.offer key ttl x).bind fun _ ↦ Call.done x).EndsIn Clock.ample (· = x) := by
  have hoffer : (c.offer key ttl x).EndsIn Clock.ample fun _ ↦ True := by
    cases x with
    | inl v => exact trivial
    | inr r =>
      cases r with
      | error source => exact trivial
      | ok v => exact (hremote.set key v ttl httl).discard
  exact hoffer.bind fun _ _ ↦ rfl

/-- A copy is left at once, or it is not taken. -/
theorem exec_populate {α : Type} {h : Heap} (hnow : h.now < Clock.ample)
    (httl : ttl < Clock.secs (2 ^ 55)) (me : Nat) (v : String) (a : α) :
    (((c.populate key v ttl).bind fun _ ↦ Call.done a).exec me h []).rest = .done a := by
  have hpopulate : (c.populate key v ttl).AtOnce me h (fun _ h' ↦ h.Unfetched h') fun _ ↦ False :=
    Filler.atOnce_populate (Expiry.after_ne_none hnow httl)
  have hdone := hpopulate.bind (Q := fun b _ ↦ b = a) fun _ _ _ ↦ Call.AtOnce.done rfl
  rcases hdone.rest_exec with ⟨b, hrest, rfl⟩ | ⟨-, hfalse⟩
  · exact hrest
  · exact hfalse.elim

/-- A fill settles at once, with what it has found. -/
theorem exec_settle {h : Heap} (hnow : h.now < Clock.ample) (httl : ttl < Clock.secs (2 ^ 55))
    (me : Nat) (x : String ⊕ Except String String) :
    ((c.settle key ttl x).exec me h []).rest = .done (yield x) := by
  cases x with
  | inl v => rfl
  | inr r =>
    cases r with
    | error source => rfl
    | ok v => exact exec_populate hnow httl me v _

/-- A hybrid tier over a tier that endures endures. -/
theorem endures (hpopulation : c.settings.populationSecs < 2 ^ 55) (hremote : c.remote.Endures) :
    c.tier.Endures where
  get key := by
    refine Call.EndsIn.bind (endsIn_localHit _) fun r _ ↦ ?_
    cases r with
    | some v => exact trivial
    | none =>
      refine Call.EndsIn.bind (hremote.get key) fun a _ ↦ ?_
      cases a with
      | error f => exact trivial
      | ok v => exact (endsIn_populate (population_lt hpopulation) v).bind fun _ _ ↦ trivial
  set key v ttl httl := by
    refine Call.EndsIn.bind (hremote.set key v ttl httl) fun a _ ↦ ?_
    cases a with
    | error f => exact trivial
    | ok _ => exact (endsIn_populate httl v).bind fun _ _ ↦ trivial

end Endings

/-! ### To whom the parts turn -/

section Callers

variable {c} {key : String} {ttl : Nat} {g : Nat} {F : String → Call (Answer String) → Prop}

theorem comes_localHit : (c.localHit key).Comes g F := by
  refine (Call.Comes.whenOpen _ ((Call.Comes.lookup _ _).bind fun r ↦ ?_)).bind fun a ↦ ?_
  · cases r <;> exact .done _
  · cases a <;> exact .done _

theorem comes_populate (v : String) : (c.populate key v ttl).Comes g F :=
  .discard (.whenOpen _ ((Call.Comes.insert _ _ _ _).discard.bind fun _ ↦ .done _))

theorem comes_consult (hget : (c.remote.get key).Comes g F) : (c.consult key).Comes g F := by
  refine comes_localHit.bind fun r ↦ ?_
  cases r with
  | some v => exact .done _
  | none => exact hget.bind fun _ ↦ .done _

theorem comes_fill {fetch : Fetch} (hset : ∀ v, (c.remote.set key v ttl).Comes g F)
    (hfetch : fetch.Comes g F) : (c.fill key ttl fetch).Comes g F := by
  rw [fill_eq_bind]
  refine Call.Comes.bind (Call.Comes.bind ?_ fun x ↦ Call.Comes.bind ?_ fun _ ↦ .done _) fun x ↦ ?_
  · refine (Call.Comes.lookup _ _).bind fun r ↦ ?_
    cases r with
    | some v => exact .done _
    | none => exact hfetch.bind fun _ ↦ .done _
  · cases x with
    | inl v => exact .done _
    | inr r =>
      cases r with
      | error source => exact .done _
      | ok v => exact (hset v).discard
  · cases x with
    | inl v => exact .done _
    | inr r =>
      cases r with
      | error source => exact .done _
      | ok v => exact (comes_populate v).bind fun _ ↦ .done _

/-- A call for a key brings its own fill to the guard, and otherwise what the other tier and its
fetch bring. -/
theorem comes_getOrSet {fetch : Fetch} (hget : (c.remote.get key).Comes g F)
    (hset : ∀ v, (c.remote.set key v ttl).Comes g F) (hfetch : fetch.Comes g F)
    (hfill : c.guard = g → F key (c.fill key ttl fetch)) :
    (c.getOrSet key ttl fetch).Comes g F := by
  rw [getOrSet_eq_bind]
  refine (comes_consult hget).bind fun x ↦ ?_
  cases x with
  | inl v => exact .done _
  | inr a =>
    cases a with
    | ok v => exact (comes_populate v).bind fun _ ↦ .done _
    | error f =>
      have hours := comes_fill hset hfetch
      exact ⟨⟨hours.unbegun, fun _ ↦ trivial⟩, hfill, hours.brings, fun _ ↦ trivial⟩

end Callers

end Hybrid

end TwoTier
