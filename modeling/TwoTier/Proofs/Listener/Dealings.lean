import TwoTier.Proofs.Engine.Chronicle
import TwoTier.Proofs.Listener.Dropping
import TwoTier.Proofs.Listener.Noted
import TwoTier.Proofs.Listener.Reception

/-!
# Those who have to do with a listener

Tasks start, stop and drop a listener, publish payloads, drop its subscriptions and use the caches
(`Notice.Deals`), and they may be cancelled at each of their waits. Their calls leave a mark of each
event that the accounts are read off. Without their marks they are the calls themselves
(`Notice.Links`), and whatever they have yet to do keeps the accounts (`Notice.recounts_dealing`).
-/

set_option autoImplicit false
set_option relaxedAutoImplicit false

namespace TwoTier

namespace Notice

open Tiers Listener
open Marked (marks call_marks)

/-! ### Calls with their marks -/

/-- What is noted of the starts and stops of a listener. -/
def entries : Listener.Notes Event where
  retires r := [fun h ↦ .told (h.tiers.loop r).subscription, fun _ ↦ .replacing]
  subscribed i channel := [fun _ ↦ .subscribed i channel]
  refused := [fun _ ↦ .refused]
  drains r := [fun h ↦ .told (h.tiers.loop r).subscription]
  settled r
    | true => []
    | false => [fun h ↦ .closed (h.tiers.loop r).source (h.tiers.loop r).subscription]

section Calls

variable {α : Type} (l s : Nat)

/-- The listener is dropped: nobody holds it any more. -/
def notedDrop (k : Unit → Marked Event α) : Marked Event α :=
  .act (Call.atomically fun h ↦
    ((h.tiers.listener l).loop.map fun r ↦ (h.tiers.loop r).subscription,
    h.tiers.abandonListener l)) fun
    | some i => .mark (fun _ ↦ .told i) (k ())
    | none => k ()

/-- Payloads are published on a channel, one after the other. -/
def notedPublish (channel : String) (payloads : List String) (k : Answer Unit → Marked Event α) :
    Marked Event α :=
  .act (Call.onStore s fun _ ↦ Store.publishMany channel payloads) fun
    | .ok _ => marks (payloads.map fun p _ ↦ .published channel p) (k (.ok ()))
    | .error f => k (.error f)

/-- The subscriptions to a channel are dropped. -/
def notedDisconnect (channel : String) (k : Unit → Marked Event α) : Marked Event α :=
  .act (Call.modify fun t ↦ t.setStore s ((t.store s).disconnect channel)) fun b ↦
    .mark (fun _ ↦ .disconnected channel) (k b)

end Calls

/-! ### Without their marks they are the calls -/

/-- The calls that leave marks are those of a listener, and of the store that it listens at. To drop
a listener is what happens to it when it loses its last holder. -/
structure Links (l s : Nat) : Prop where
  start : (start l).Underlies (notedStart entries l)
  stop : (stop l).Underlies (notedStop entries l)
  drop : (Call.modify fun t ↦ t.abandonListener l).Underlies (notedDrop l)
  dropped : ∀ (t : Tiers) (held : List Held), l ∈ t.listeners → .listener l ∉ t.closure held →
    (∀ i, (t.listener l).source = .store i → .store i ∈ t.closure held) →
    t.release held = (t.abandonListener l).release (.listener l :: held)
  publish : ∀ channel payload, (Call.onStore s fun _ ↦ Store.publish channel payload).Underlies
    (notedPublish s channel [payload])
  publishMany : ∀ channel payloads,
    (Call.onStore s fun _ ↦ Store.publishMany channel payloads).Underlies
      (notedPublish s channel payloads)
  disconnect : ∀ channel,
    (Call.modify fun t ↦ t.setStore s ((t.store s).disconnect channel)).Underlies
      (notedDisconnect s channel)

theorem underlies_notedPublish (s : Nat) (channel : String) (payloads : List String) :
    (Call.onStore s fun _ ↦ Store.publishMany channel payloads).Underlies
      (notedPublish s channel payloads) := by
  refine fun k ↦ congrArg (Call.bind _) (funext fun a ↦ ?_)
  cases a with
  | ok _ => exact call_marks _ _
  | error f => rfl

/-- One payload is published as several are. -/
theorem publishMany_singleton (channel payload : String) (x : Store) :
    Store.publishMany channel [payload] x = Store.publish channel payload x := by
  unfold Store.publishMany
  split
  · rename_i heq
    rw [heq]
    rfl
  · rfl

theorem underlies_notedDrop (l : Nat) :
    (Call.modify fun t ↦ t.abandonListener l).Underlies (notedDrop l) := by
  refine fun k ↦ congrArg Call.read (funext fun h ↦ congrArg (Call.write _) ?_)
  simp only [Call.done_bind]
  cases (h.tiers.listener l).loop with
  | none => rfl
  | some r => rfl

theorem links (l s : Nat) : Links l s where
  start := underlies_notedStart entries l
  stop := underlies_notedStop entries l
  drop := underlies_notedDrop l
  dropped _ _ := release_eq_abandonListener
  publish channel payload := by
    have hone : Store.publish channel payload = Store.publishMany channel [payload] :=
      funext fun x ↦ (publishMany_singleton channel payload x).symm
    rw [hone]
    exact fun {_} k ↦ underlies_notedPublish s channel [payload] k
  publishMany := underlies_notedPublish s
  disconnect _ _ _ := rfl

/-! ### Which calls there are -/

/-- A store has the subscriptions that it had. -/
def Untuned (x x' : Store) : Prop :=
  x'.subscribers = x.subscribers ∧ x'.nextSubscriber = x.nextSubscriber

/-- The calls of those who have to do with a listener. Where `mid` is true, what is left of a start
or a stop that has begun is a call, too. -/
inductive Deals (a : Site) (mid : Prop) : ∀ {α : Type}, Marked Event α → Prop
  | done {α : Type} (b : α) : Deals a mid (.done b)
  | crash {α : Type} : Deals a mid (.crash : Marked Event α)
  | start {α : Type} {k : Answer Unit → Marked Event α} (hk : ∀ b, Deals a mid (k b)) :
      Deals a mid (notedStart entries a.listener k)
  | stop {α : Type} {k : Unit → Marked Event α} (hk : ∀ b, Deals a mid (k b)) :
      Deals a mid (notedStop entries a.listener k)
  | drop {α : Type} {k : Unit → Marked Event α} (hk : ∀ b, Deals a mid (k b)) :
      Deals a mid (notedDrop a.listener k)
  | replace {α : Type} {r : Nat} {k : Answer Unit → Marked Event α} (hmid : mid)
      (hk : ∀ b, Deals a mid (k b)) :
      Deals a mid (.loopEnd r none fun _ ↦ notedSubscribe entries a.listener k)
  | settle {α : Type} {r : Nat} {deadline : Option Nat} {k : Unit → Marked Event α} (hmid : mid)
      (hk : ∀ b, Deals a mid (k b)) :
      Deals a mid (.loopEnd r deadline (notedSettle entries a.listener r k))
  | publish {α : Type} {channel : String} {payloads : List String}
      {k : Answer Unit → Marked Event α} (hk : ∀ b, Deals a mid (k b)) :
      Deals a mid (notedPublish a.store channel payloads k)
  | disconnect {α : Type} {channel : String} {k : Unit → Marked Event α}
      (hk : ∀ b, Deals a mid (k b)) : Deals a mid (notedDisconnect a.store channel k)
  | look {α β : Type} {f : Heap → β} {k : β → Marked Event α} (hk : ∀ b, Deals a mid (k b)) :
      Deals a mid (.act (Call.look f) k)
  | use {α β : Type} {f : Heap → β × Tiers} {k : β → Marked Event α}
      (hf : ∀ h, Untouched a h.tiers (f h).2) (hk : ∀ b, Deals a mid (k b)) :
      Deals a mid (.act (Call.atomically f) fun b ↦
        .mark (fun h ↦ .touched (Caches.of a.near a.store h.tiers)) (k b))
  | useStore {α β : Type} {i : Nat} {op : Nat → Store → Outcome β × Store}
      {k : Answer β → Marked Event α} (hop : ∀ now x, Untuned x (op now x).2)
      (hoverflow : ∀ now x, (op now x).1 = .overflow → (op now x).2 = x)
      (hk : ∀ b, Deals a mid (k b)) :
      Deals a mid (.act (Call.onStore i op) fun b ↦
        .mark (fun h ↦ .touched (Caches.of a.near a.store h.tiers)) (k b))
  | elsewhere {α β : Type} {f : Heap → β × Tiers} {k : β → Marked Event α}
      (hf : ∀ h, Unseen a h.tiers (f h).2) (hk : ∀ b, Deals a mid (k b)) :
      Deals a mid (.act (Call.atomically f) k)
  | pause {α : Type} {k : Marked Event α} (hk : Deals a mid k) : Deals a mid (.pause k)
  | sleep {α : Type} {wake : Option Nat} {k : Marked Event α} (hk : Deals a mid k) :
      Deals a mid (.sleep wake k)
  | join {α : Type} {g : Nat} {key : String} {fill : Marked Event (Answer String)}
      {k : Answer String → Marked Event α} (hfill : Deals a mid fill)
      (hk : ∀ b, Deals a mid (k b)) :
      Deals a mid (.join g key fill k)
  | await {α : Type} {i : Nat} {k : Answer String → Marked Event α} (hk : ∀ b, Deals a mid (k b)) :
      Deals a mid (.await i k)
  | acquire {α : Type} {m : Lock} {k : Marked Event α} (hk : Deals a mid k) :
      Deals a mid (.acquire m k)
  | release {α : Type} {m : Lock} {k : Marked Event α} (hk : Deals a mid k) :
      Deals a mid (.release m k)

namespace Deals

variable {a : Site} {mid : Prop} {α β : Type}

theorem opens {m : Marked Event α} (hm : Deals a mid m) : Play.Opens m := by
  cases hm <;> trivial

/-- What the calls have yet to do are such calls, or what is left of one. -/
theorem widen {m : Marked Event α} (hm : Deals a mid m) : Deals a True m := by
  induction hm with
  | done b => exact .done b
  | crash => exact .crash
  | start _ ih => exact .start ih
  | stop _ ih => exact .stop ih
  | drop _ ih => exact .drop ih
  | replace _ _ ih => exact .replace trivial ih
  | settle _ _ ih => exact .settle trivial ih
  | publish _ ih => exact .publish ih
  | disconnect _ ih => exact .disconnect ih
  | look _ ih => exact .look ih
  | use hf _ ih => exact .use hf ih
  | useStore hop hoverflow _ ih => exact .useStore hop hoverflow ih
  | elsewhere hf _ ih => exact .elsewhere hf ih
  | pause _ ih => exact .pause ih
  | sleep _ ih => exact .sleep ih
  | join _ _ ihfill ih => exact .join ihfill ih
  | await _ ih => exact .await ih
  | acquire _ ih => exact .acquire ih
  | release _ ih => exact .release ih

section Lasting

variable {C : ∀ α : Type, Marked Event α → Prop} {l : Nat}

theorem lasting_notedSubscribe (hcrash : ∀ α, C α .crash) {k : Answer Unit → Marked Event α}
    (hk : ∀ b, (k b).Lasting C) : (notedSubscribe entries l k).Lasting C := by
  refine ⟨hcrash α, fun _ ↦ ⟨hcrash α, fun x ↦ ⟨hcrash α, fun o ↦ ?_⟩⟩⟩
  cases o with
  | ok i => exact ⟨hcrash α, fun _ ↦ hk _⟩
  | error f => exact ⟨hcrash α, fun _ ↦ hk _⟩

theorem lasting_notedSettle (hcrash : ∀ α, C α .crash) {r : Nat} {k : Unit → Marked Event α}
    (hk : ∀ b, (k b).Lasting C) (inTime : Bool) : (notedSettle entries l r k inTime).Lasting C := by
  cases inTime <;> exact ⟨hcrash α, hk⟩

theorem lasting_marks {es : List (Heap → Event)} {k : Marked Event α} (hk : k.Lasting C) :
    (marks es k).Lasting C := by
  induction es with
  | nil => exact hk
  | cons e es ih => exact ih

end Lasting

theorem lasting {m : Marked Event α} (hm : Deals a True m) :
    m.Lasting fun _ m ↦ Deals a True m := by
  have hcrash : ∀ α, Deals a True (.crash : Marked Event α) := fun _ ↦ .crash
  induction hm with
  | done b => exact .done b
  | crash => exact .crash
  | start hk ih =>
    refine ⟨.start hk, hcrash _, fun served ↦ ?_⟩
    cases served with
    | true => exact ih _
    | false =>
      refine ⟨hcrash _, fun taken ↦ ?_⟩
      cases taken with
      | none => exact lasting_notedSubscribe hcrash ih
      | some r =>
        exact ⟨hcrash _, fun _ ↦ ⟨.replace trivial hk, fun _ ↦ lasting_notedSubscribe hcrash ih⟩⟩
  | stop hk ih =>
    refine ⟨.stop hk, hcrash _, fun taken ↦ ?_⟩
    cases taken with
    | none => exact ih _
    | some r =>
      exact ⟨hcrash _, fun _ ↦ ⟨hcrash _, fun _ ↦ ⟨.settle trivial hk,
        lasting_notedSettle hcrash ih⟩⟩⟩
  | drop _ ih =>
    refine ⟨hcrash _, fun told ↦ ?_⟩
    cases told <;> exact ih ()
  | replace hmid hk ih => exact ⟨.replace hmid hk, fun _ ↦ lasting_notedSubscribe hcrash ih⟩
  | settle hmid hk ih => exact ⟨.settle hmid hk, lasting_notedSettle hcrash ih⟩
  | publish _ ih =>
    refine ⟨hcrash _, fun o ↦ ?_⟩
    cases o with
    | ok _ => exact lasting_marks (ih _)
    | error f => exact ih _
  | disconnect _ ih => exact ⟨hcrash _, ih⟩
  | look _ ih => exact ⟨hcrash _, ih⟩
  | use _ _ ih => exact ⟨hcrash _, ih⟩
  | useStore _ _ _ ih => exact ⟨hcrash _, ih⟩
  | elsewhere _ _ ih => exact ⟨hcrash _, ih⟩
  | pause hk ih => exact ⟨.pause hk, ih⟩
  | sleep hk ih => exact ⟨.sleep hk, ih⟩
  | join hfill hk ihfill ih => exact ⟨.join hfill hk, fun _ ↦ .await hk, ih, .pause hfill, ihfill⟩
  | await hk ih => exact ⟨.await hk, ih⟩
  | acquire hk ih => exact ⟨.acquire hk, ih⟩
  | release _ ih => exact ih

end Deals

/-! ### They keep the accounts -/

/-- The accounts of a listener, as an invariant of the heap and the history. -/
def Accounted (a : Site) (h : Heap) (es : List Event) : Prop := Ledger a h.tiers es

section Safe

open Play (Since)

variable {a : Site} {α β : Type} {base : Log Event} {es : List Event} {me : Nat} {h : Heap}
  {log : Log Event}

/-- A thread keeps the accounts from wherever they are true. -/
def Keeps (a : Site) (base : Log Event) (es : List Event) (me : Nat) (m : Marked Event α) : Prop :=
  ∀ h log, Since (Accounted a) base es h log → Marked.Safe (Since (Accounted a) base es) me m h log

/-- The accounts are of the tiers alone. -/
theorem since_congr {h' : Heap} (hi : Since (Accounted a) base es h log) (ht : h'.tiers = h.tiers) :
    Since (Accounted a) base es h' log :=
  hi.mono fun es' hJ ↦ by
    unfold Accounted at hJ ⊢
    rw [ht]
    exact hJ

/-- What was entered since is entered with the same marks of others in between. -/
theorem safe_marks {es' : List Event} {k : Marked Event α} {log : Log Event}
    (hk : Marked.Safe (Since (Accounted a) base es) me k h
      ((es'.reverse.map fun e ↦ (me, e)) ++ log)) :
    Marked.Safe (Since (Accounted a) base es) me (marks (es'.map fun e _ ↦ e) k) h log := by
  induction es' generalizing log with
  | nil => exact hk
  | cons e es' ih =>
    refine ih ?_
    rw [List.reverse_cons, List.map_append, List.append_assoc] at hk
    exact hk

theorem safe_notedSubscribe {k : Answer Unit → Marked Event α}
    (hk : ∀ b, Keeps a base es me (k b)) :
    Keeps a base es me (notedSubscribe entries a.listener k) := by
  intro h log hi
  refine Or.inl ⟨_, (), rfl, Or.inl ⟨_, _, rfl, ?_⟩⟩
  have hstarting : Since (Accounted a) base es
      { h with tiers := h.tiers.setStage a.listener .starting } log :=
    hi.mono fun es' hJ ↦ Ledger.setStage hJ .starting
  obtain ⟨new, -, hJ⟩ := id hstarting
  have hsource : ((h.tiers.setStage a.listener .starting).listener a.listener).source =
      .store a.store := hJ.looped.source
  have hchannel : ((h.tiers.setStage a.listener .starting).listener a.listener).channel =
      a.channel := hJ.looped.channel
  dsimp only
  rw [hsource, hchannel]
  generalize ({ h with tiers := h.tiers.setStage a.listener .starting } : Heap) = h₁ at hstarting
  have hsubscribed : (subscribe (.store a.store) a.channel).AtOnce me h₁
      (fun o h' ↦ (∀ i, o = .ok i → Since (Accounted a) base es
          { h' with tiers := h'.tiers.startLoop a.listener i }
            ((me, .subscribed i a.channel) :: log)) ∧
        ∀ f, o = .error f → Since (Accounted a) base es
          { h' with tiers := h'.tiers.setStage a.listener .stopped } ((me, .refused) :: log))
      fun _ ↦ False := by
    change (Call.onStore a.store fun _ ↦ Store.subscribe a.channel).AtOnce me h₁ _ _
    refine Call.AtOnce.onStore (fun i hok ↦ ⟨fun j hj ↦ ?_, fun f hf ↦ ?_⟩)
      (fun f hfault ↦ ⟨fun j hj ↦ ?_, fun f hf ↦ ?_⟩) fun ho ↦ ?_
    · obtain rfl := Except.ok.inj hj
      exact hstarting.mark me fun es' hJ ↦ Ledger.subscribe hJ hok
    · cases hf
    · cases hj
    · rw [subscribe_snd_of_fault hfault]
      exact hstarting.mark me fun es' hJ ↦
        (Ledger.unseen hJ (unseen_setStore_same a _ _)).refuse.setStage .stopped
    · exact Store.subscribe_ne_overflow _ _ ho
  refine Marked.Safe.of_atOnce hsubscribed (fun o h' hafter ↦ ?_) fun _ hfail ↦ hfail.elim
  cases o with
  | ok i => exact Or.inl ⟨_, (), rfl, hk _ _ _ (since_congr (hafter.1 i rfl) rfl)⟩
  | error f => exact Or.inl ⟨_, (), rfl, hk _ _ _ (since_congr (hafter.2 f rfl) rfl)⟩

theorem safe_notedStart {k : Answer Unit → Marked Event α} (hk : ∀ b, Keeps a base es me (k b)) :
    Keeps a base es me (notedStart entries a.listener k) := by
  refine fun h log hi ↦ ⟨hi, fun h' log' hi' _ ↦ ⟨since_congr hi' (Heap.tiers_enqueue h' _ me),
    fun _ ↦ ?_⟩⟩
  have hi₁ := since_congr hi' (Heap.tiers_enqueue h' (.listener a.listener) me)
  generalize h'.enqueue (.listener a.listener) me = h₁ at hi₁
  refine Or.inl ⟨_, _, rfl, ?_⟩
  dsimp only
  cases isServed h₁ a.listener with
  | true => exact hk _ _ _ (since_congr hi₁ rfl)
  | false =>
    refine Or.inl ⟨_, _, rfl, ?_⟩
    dsimp only [takeLoop]
    cases hloop : (h₁.tiers.listener a.listener).loop with
    | none => exact safe_notedSubscribe hk _ _ (hi₁.mono fun es' hJ ↦ Ledger.takeLoop hJ)
    | some r =>
      have htold : Since (Accounted a) base es
          { h₁ with tiers := (h₁.tiers.takeLoop a.listener).2.cancelLoop r }
          ((me, .told (h₁.tiers.loop r).subscription) :: log') :=
        hi₁.mark me fun es' hJ ↦ (Ledger.cancelLoop hJ hloop).takeLoop
      refine Or.inl ⟨_, (), rfl, htold.mark me fun es' hJ ↦ Ledger.replace hJ,
        fun h₂ log₂ hi₂ _ ↦ ⟨fun _ ↦ safe_notedSubscribe hk _ _ hi₂, fun hdue ↦ ?_⟩⟩
      cases hdue

theorem safe_notedSettle {r : Nat} {k : Unit → Marked Event α} (hk : ∀ b, Keeps a base es me (k b))
    (inTime : Bool) : Keeps a base es me (notedSettle entries a.listener r k inTime) := by
  intro h log hi
  cases inTime with
  | true => exact Or.inl ⟨_, (), rfl, hk _ _ _ (hi.mono fun es' hJ ↦ Ledger.setStage hJ .stopped)⟩
  | false =>
    refine Or.inl ⟨_, (), rfl, hk _ _ _ (hi.mark me fun es' hJ ↦ ?_)⟩
    exact (Ledger.closeLoop hJ r).setStage .stopped

theorem safe_notedStop {k : Unit → Marked Event α} (hk : ∀ b, Keeps a base es me (k b)) :
    Keeps a base es me (notedStop entries a.listener k) := by
  refine fun h log hi ↦ ⟨hi, fun h' log' hi' _ ↦ ⟨since_congr hi' (Heap.tiers_enqueue h' _ me),
    fun _ ↦ ?_⟩⟩
  have hi₁ := since_congr hi' (Heap.tiers_enqueue h' (.listener a.listener) me)
  generalize h'.enqueue (.listener a.listener) me = h₁ at hi₁
  refine Or.inl ⟨_, _, rfl, ?_⟩
  dsimp only [takeLoop, Marked.Safe]
  cases hloop : (h₁.tiers.listener a.listener).loop with
  | none =>
    refine hk _ _ _ (since_congr (h := { h₁ with tiers := (h₁.tiers.takeLoop a.listener).2 })
      (hi₁.mono fun es' hJ ↦ Ledger.takeLoop hJ) rfl)
  | some r =>
    have htold : Since (Accounted a) base es { h₁ with
        tiers := ((h₁.tiers.takeLoop a.listener).2.setStage a.listener .stopping).cancelLoop r }
        ((me, .told (h₁.tiers.loop r).subscription) :: log') :=
      hi₁.mark me fun es' hJ ↦ (Ledger.cancelLoop hJ hloop).takeLoop.setStage .stopping
    refine Or.inl ⟨_, (), rfl, Or.inl ⟨_, _, rfl, since_congr htold rfl, fun h₂ log₂ hi₂ _ ↦ ?_⟩⟩
    exact ⟨fun _ ↦ safe_notedSettle hk true _ _ hi₂, fun _ ↦ safe_notedSettle hk false _ _ hi₂⟩

theorem safe_notedDrop {k : Unit → Marked Event α} (hk : ∀ b, Keeps a base es me (k b)) :
    Keeps a base es me (notedDrop a.listener k) := by
  refine fun h log hi ↦ Or.inl ⟨_, _, rfl, ?_⟩
  dsimp only [abandonListener, takeLoop]
  cases hloop : (h.tiers.listener a.listener).loop with
  | none => exact hk _ _ _ (hi.mono fun es' hJ ↦ Ledger.takeLoop hJ)
  | some r => exact hk _ _ _ (hi.mark me fun es' hJ ↦ (Ledger.cancelLoop hJ hloop).takeLoop)

theorem safe_notedPublish {channel : String} {payloads : List String}
    {k : Answer Unit → Marked Event α} (hk : ∀ b, Keeps a base es me (k b)) :
    Keeps a base es me (notedPublish a.store channel payloads k) := by
  intro h log hi
  have hpublished : (Call.onStore a.store fun _ ↦ Store.publishMany channel payloads).AtOnce me h
      (fun o h' ↦ (o = .ok () → Since (Accounted a) base es h'
          (((payloads.map (.published channel)).reverse.map fun e ↦ (me, e)) ++ log)) ∧
        ∀ f, o = .error f → Since (Accounted a) base es h' log) fun _ ↦ False := by
    rcases publishMany_cases channel payloads (h.tiers.store a.store) with hok | ⟨f, hfault⟩
    · refine Call.AtOnce.onStore_of_ok hok ⟨fun _ ↦ ?_, fun f hf ↦ ?_⟩
      · obtain ⟨new, rfl, hJ⟩ := hi
        refine ⟨((payloads.map (.published channel)).reverse.map fun e ↦ (me, e)) ++ new,
          (List.append_assoc _ _ _).symm, ?_⟩
        have hsame : (Prod.snd ∘ fun e : Event ↦ (me, e)) = id := rfl
        rw [List.map_append, List.map_map, hsame, List.map_id, List.append_assoc]
        exact Ledger.publishMany hJ hok
      · cases hf
    · refine Call.AtOnce.onStore_of_fault (congrArg Prod.fst hfault) ⟨fun h ↦ ?_, fun _ _ ↦ ?_⟩
      · cases h
      · rw [hfault]
        exact hi.mono fun es' hJ ↦ Ledger.unseen hJ (unseen_setStore_same a _ _)
  refine Marked.Safe.of_atOnce hpublished (fun o h' hafter ↦ ?_) fun _ hfail ↦ hfail.elim
  cases o with
  | ok _ =>
    have hsafe := safe_marks (hk (.ok ()) _ _ (hafter.1 rfl))
    rw [List.map_map] at hsafe
    exact hsafe
  | error f => exact hk _ _ _ (hafter.2 f rfl)

/-- Whoever has to do with the listener keeps the accounts. -/
theorem Deals.safe {m : Marked Event α} (hm : Deals a True m) (me : Nat) :
    Keeps a base es me m := by
  induction hm generalizing me with
  | done b => exact fun h log hi ↦ since_congr hi rfl
  | crash => exact fun h log hi ↦ since_congr hi rfl
  | start _ ih => exact safe_notedStart fun b ↦ ih b me
  | stop _ ih => exact safe_notedStop fun b ↦ ih b me
  | drop _ ih => exact safe_notedDrop fun b ↦ ih b me
  | replace _ _ ih =>
    refine fun h log hi ↦ ⟨hi, fun h' log' hi' _ ↦ ⟨fun _ ↦ ?_, fun hdue ↦ ?_⟩⟩
    · exact safe_notedSubscribe (fun b ↦ ih b me) _ _ hi'
    · cases hdue
  | settle _ _ ih =>
    refine fun h log hi ↦ ⟨hi, fun h' log' hi' _ ↦ ⟨fun _ ↦ ?_, fun _ ↦ ?_⟩⟩
    · exact safe_notedSettle (fun b ↦ ih b me) true _ _ hi'
    · exact safe_notedSettle (fun b ↦ ih b me) false _ _ hi'
  | publish _ ih => exact safe_notedPublish fun b ↦ ih b me
  | @disconnect _ channel _ _ ih =>
    intro h log hi
    exact Or.inl ⟨_, (), rfl, ih () me _ _ (hi.mark me fun es' hJ ↦ Ledger.disconnect hJ channel)⟩
  | look _ ih => exact fun h log hi ↦ Or.inl ⟨_, _, rfl, ih _ me _ _ hi⟩
  | use hf _ ih =>
    intro h log hi
    exact Or.inl ⟨_, _, rfl, ih _ me _ _ (hi.mark me fun es' hJ ↦ Ledger.touch hJ (hf h))⟩
  | @useStore _ _ i op _ hop hoverflow _ ih =>
    intro h log hi
    have hused : Since (Accounted a) base es
        { h with tiers := h.tiers.setStore i (op h.now (h.tiers.store i)).2 }
        ((me, .touched (Caches.of a.near a.store
          (h.tiers.setStore i (op h.now (h.tiers.store i)).2))) :: log) :=
      hi.mark me fun es' hJ ↦ Ledger.touch hJ (untouched_setStore a h.tiers (hop h.now _))
    refine Marked.Safe.of_atOnce (P := fun _ h' ↦ h' =
        { h with tiers := h.tiers.setStore i (op h.now (h.tiers.store i)).2 })
      (F := fun h' ↦ Since (Accounted a) base es h' log)
      (Call.AtOnce.onStore (fun _ _ ↦ rfl) (fun _ _ ↦ rfl) fun ho ↦ ?_) (fun b h' heq ↦ ?_)
      fun h' hi' ↦ since_congr hi' rfl
    · rw [hoverflow _ _ ho]
      exact hi.mono fun es' hJ ↦ Ledger.unseen hJ (unseen_setStore_same a _ i)
    · rw [heq]
      exact ih b me _ _ hused
  | elsewhere hf _ ih =>
    exact fun h log hi ↦
      Or.inl ⟨_, _, rfl, ih _ me _ _ (hi.mono fun es' hJ ↦ Ledger.unseen hJ (hf h))⟩
  | pause _ ih => exact fun h log hi ↦ ⟨hi, fun h' log' hi' _ ↦ ih me h' log' hi'⟩
  | sleep _ ih => exact fun h log hi ↦ ⟨hi, fun h' log' hi' _ ↦ ih me h' log' hi'⟩
  | join _ _ ihfill ih =>
    exact fun h log hi ↦ ⟨hi, fun i h' log' hi' _ ↦ ihfill i h' log' hi',
      fun o h' log' hi' _ ↦ ih o me h' log' hi'⟩
  | await _ ih => exact fun h log hi ↦ ⟨hi, fun o h' log' hi' _ ↦ ih o me h' log' hi'⟩
  | @acquire _ lock _ _ ih =>
    refine fun h log hi ↦ ⟨hi, fun h' log' hi' _ ↦ ?_⟩
    have hqueued := since_congr hi' (Heap.tiers_enqueue h' lock me)
    exact ⟨hqueued, fun _ ↦ ih me _ _ hqueued⟩
  | release _ ih => exact fun h log hi ↦ ih me _ _ (since_congr hi rfl)

end Safe

/-- Tasks have to do with a listener, and may be cancelled. The listener keeps its name, so that
nobody drops it but by a call. -/
def dealing (a : Site) (ρ : Type) : Play.Rules Event ρ :=
  ⟨Deals a False, [.listener a.listener], True⟩

theorem recounts_dealing (a : Site) (ρ : Type) :
    Play.Recounts (dealing a ρ) heard (fun _ m ↦ Deals a True m) (Accounted a) where
  thread _ _ hJ := hJ
  clock _ hJ := hJ
  release hnamed hJ :=
    Ledger.unseen hJ (unseen_release hJ.looped (hnamed (List.mem_singleton.mpr rfl)))
  aborts _ _ _ _ hJ := hJ
  loop n hr hready hJ := (Ledger.stepLoop hJ hr hready).setSince (mem_loops_stepLoop hr) n
  lasting hm := hm.lasting
  crash := .crash
  call hm := hm.widen
  opens hm := hm.opens
  safe hm _ _ _ _ _ hi := hm.safe _ _ _ hi

end Notice

end TwoTier
