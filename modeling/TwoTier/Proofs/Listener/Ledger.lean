import TwoTier.Proofs.Listener.Delivery
import TwoTier.Proofs.Listener.Dismissed
import TwoTier.Proofs.Listener.Tended

/-!
# The accounts of a listener

What a listener for notices has counted, what its receive loops have taken, and what the caches show
are read off the history (`Notice.Ledger`). The history is that of tasks, which mark what they do,
and of the steps of receive loops (`Notice.heard`).

There is one lemma for each thing that happens: to the listener and its loops, to the subscriptions,
and to the caches.
-/

set_option autoImplicit false
set_option relaxedAutoImplicit false

namespace TwoTier

namespace Notice

open Tiers

/-- A listener for notices, and what it found when it was first looked at. -/
structure Site where
  /-- The number of the listener. -/
  listener : Nat
  /-- The number of its store. -/
  store : Nat
  /-- The number of its local tier. -/
  near : Nat
  /-- Its channel. -/
  channel : String
  /-- The number of its first subscription. -/
  first : Nat
  /-- What the caches showed. -/
  shown : Caches

/-- What a receive loop does in its step. -/
def heard (t : Tiers) (r : Nat) : List Event :=
  let y := t.loop r
  if y.ended then []
  else if y.cancelled then [.left y.subscription]
  else
    match y.source with
    | .store s =>
      match ((t.store s).receive y.subscription).1 with
      | .pending => []
      | .ended => [.left y.subscription]
      | d => [.took y.subscription d]
    | .server _ => []

/-! ### What is counted, and what the caches show -/

/-- A payload that names a single key. -/
def Names (payload : String) : Prop := payload ≠ "" ∧ isPattern payload = false

instance (payload : String) : Decidable (Names payload) :=
  inferInstanceAs (Decidable (payload ≠ "" ∧ isPattern payload = false))

/-- A payload was taken that names a single key. -/
def Event.applies : Event → Bool
  | .took _ (.payload p) => decide (Names p)
  | _ => false

/-- A payload was taken that names none. -/
def Event.ignores : Event → Bool
  | .took _ (.payload p) => !decide (Names p)
  | _ => false

/-- A loss was reported. -/
def Event.fails : Event → Bool
  | .took _ (.lagged _) => true
  | _ => false

/-- The caches without an entry of the local tier; all else is as it was. -/
def Caches.without (c : Caches) (key : String) : Caches :=
  { c with entry := fun k ↦ if k = key then none else c.entry k }

/-- What the caches show after a history, where they showed `c` before it. -/
def replay (c : Caches) : List Event → Caches
  | [] => c
  | .touched c' :: _ => c'
  | .took _ (.payload p) :: es => if Names p then (replay c es).without p else replay c es
  | _ :: es => replay c es

/-- The counters of a listener are those of its history. -/
structure Counted (x : Listener) (es : List Event) : Prop where
  received : x.received = x.applied + x.ignored + x.failed
  applied : x.applied = es.countP Event.applies
  ignored : x.ignored = es.countP Event.ignores
  failed : x.failed = es.countP Event.fails

/-- A loop goes on, or the listener is responsible for it. -/
def Tracked (a : Site) (t : Tiers) (r : Nat) (y : Loop) : Prop :=
  t.loops[r]? = some y ∧ (y.ended = false ∨ (t.listener a.listener).loop = some r)

/-- Each of these loops has a subscription of its own. -/
structure Apart (a : Site) (t : Tiers) : Prop where
  issued : ∀ r y, Tracked a t r y → y.subscription < (t.store a.store).nextSubscriber
  eq_of : ∀ r r' y y', Tracked a t r y → Tracked a t r' y' →
    y.subscription = y'.subscription → r = r'

/-- The loops of a listener of a store are the only ones that go on, and each subscription from
number `first` on has one. -/
structure Looped (a : Site) (t : Tiers) (es : List Event) : Prop where
  source : (t.listener a.listener).source = .store a.store
  channel : (t.listener a.listener).channel = a.channel
  others : ∀ i, i ≠ a.listener → (t.listener i).loop = none
  anchored : ∀ r, (t.listener a.listener).loop = some r → r ∈ t.loops
  live : ∀ (r : Nat) (y : Loop), t.loops[r]? = some y → y.ended = false →
    r < t.next ∧ y.listener = a.listener ∧ y.source = .store a.store ∧ a.first ≤ y.subscription ∧
      (y.cancelled = true ↔ .told y.subscription ∈ es)
  apart : Apart a t
  served : ∀ u ∈ (t.store a.store).subscribers, a.first ≤ u.id →
    ∃ (r : Nat) (y : Loop), t.loops[r]? = some y ∧ y.ended = false ∧ y.subscription = u.id
  told_lt : ∀ i, .told i ∈ es → i < (t.store a.store).nextSubscriber
  asked : ∀ i channel, .subscribed i channel ∈ es → channel = a.channel
  heedful : ∀ newer older i d, es = newer ++ .took i d :: older → .told i ∉ older

/-- All of it. -/
structure Ledger (a : Site) (t : Tiers) (es : List Event) : Prop where
  subscribed : Subscribed a.store a.first (t.store a.store) es
  looped : Looped a t es
  counted : Counted (t.listener a.listener) es
  local_eq : (t.listener a.listener).localTier = a.near
  caches : Caches.of a.near a.store t = replay a.shown es

/-- An event of no loop that begins, is told to end or takes something. -/
def Event.Plain : Event → Prop
  | .subscribed _ _ => False
  | .told _ => False
  | .took _ _ => False
  | _ => True

variable {a : Site} {t t' : Tiers} {e : Event} {es : List Event}

theorem Counted.cons {x : Listener} (h : Counted x es) (happlies : e.applies = false)
    (hignores : e.ignores = false) (hfails : e.fails = false) : Counted x (e :: es) where
  received := h.received
  applied := by
    rw [List.countP_cons, if_neg (by simp [happlies])]
    exact h.applied
  ignored := by
    rw [List.countP_cons, if_neg (by simp [hignores])]
    exact h.ignored
  failed := by
    rw [List.countP_cons, if_neg (by simp [hfails])]
    exact h.failed

/-- What a loop took before it was told to end it took with nothing told, and so it stays. -/
theorem heedful_cons (h : ∀ newer older i d, es = newer ++ .took i d :: older → .told i ∉ older)
    (he : ∀ i d, e = .took i d → .told i ∉ es) :
    ∀ newer older i d, e :: es = newer ++ .took i d :: older → .told i ∉ older := by
  intro newer older i d heq
  cases newer with
  | nil =>
    obtain ⟨rfl, rfl⟩ := List.cons.inj heq
    exact he i d rfl
  | cons e' newer =>
    obtain ⟨-, rfl⟩ := List.cons.inj heq
    exact h newer older i d rfl

/-- What is tracked later was tracked before, with the same subscription. -/
theorem Apart.mono (h : Apart a t)
    (hnext : (t.store a.store).nextSubscriber ≤ (t'.store a.store).nextSubscriber)
    (htracked : ∀ r y, Tracked a t' r y →
      ∃ z, Tracked a t r z ∧ z.subscription = y.subscription) : Apart a t' where
  issued r y hy := by
    obtain ⟨z, hz, heq⟩ := htracked r y hy
    rw [← heq]
    exact Nat.lt_of_lt_of_le (h.issued r z hz) hnext
  eq_of r r' y y' hy hy' heq := by
    obtain ⟨z, hz, hzy⟩ := htracked r y hy
    obtain ⟨z', hz', hzy'⟩ := htracked r' y' hy'
    exact h.eq_of r r' z z' hz hz' (hzy.trans (heq.trans hzy'.symm))

/-- Something happens that is neither a subscription nor a word to end; what is taken is taken by a
loop that was not told to end. -/
theorem Looped.enter (h : Looped a t es) (hsubscribed : ∀ i channel, e ≠ .subscribed i channel)
    (htold : ∀ i, e ≠ .told i) (htook : ∀ i d, e = .took i d → .told i ∉ es) :
    Looped a t (e :: es) := by
  have hmem : ∀ i, .told i ∈ e :: es ↔ .told i ∈ es :=
    fun i ↦ List.mem_cons.trans (or_iff_right fun heq ↦ htold i heq.symm)
  refine ⟨h.source, h.channel, h.others, h.anchored, fun r y hy hended ↦ ?_, h.apart, h.served,
    fun i hi ↦ h.told_lt i ((hmem i).mp hi), fun i channel hi ↦ ?_, heedful_cons h.heedful htook⟩
  · rw [hmem]
    exact h.live r y hy hended
  · exact h.asked i channel
      ((List.mem_cons.mp hi).resolve_left fun heq ↦ hsubscribed i channel heq.symm)

theorem Looped.cons (h : Looped a t es) (he : e.Plain) : Looped a t (e :: es) := by
  refine h.enter (fun i channel heq ↦ ?_) (fun i heq ↦ ?_) fun i d heq ↦ ?_
  all_goals
    rw [heq] at he
    exact he.elim

/-- The loops of a listener are as they were, and nobody has subscribed to its store. -/
structure Unjoined (a : Site) (t t' : Tiers) : Prop where
  source : (t'.listener a.listener).source = (t.listener a.listener).source
  channel : (t'.listener a.listener).channel = (t.listener a.listener).channel
  loop : ∀ i r, (t'.listener i).loop = some r → (t.listener i).loop = some r
  loops : t'.loops = t.loops
  next_le : t.next ≤ t'.next
  subscribers : ∀ u ∈ (t'.store a.store).subscribers,
    ∃ v ∈ (t.store a.store).subscribers, v.id = u.id
  nextSubscriber : (t'.store a.store).nextSubscriber = (t.store a.store).nextSubscriber

theorem Looped.unjoined (h : Looped a t es) (ht : Unjoined a t t') : Looped a t' es where
  source := ht.source.trans h.source
  channel := ht.channel.trans h.channel
  others i hi := by
    rw [Option.eq_none_iff_forall_ne_some]
    intro r hr
    have hbefore := ht.loop i r hr
    rw [h.others i hi] at hbefore
    cases hbefore
  anchored r hr := by
    rw [ht.loops]
    exact h.anchored r (ht.loop _ r hr)
  live r y hy hended := by
    rw [ht.loops] at hy
    obtain ⟨hlt, hrest⟩ := h.live r y hy hended
    exact ⟨Nat.lt_of_lt_of_le hlt ht.next_le, hrest⟩
  apart := by
    refine h.apart.mono (Nat.le_of_eq ht.nextSubscriber.symm) fun r y hy ↦ ⟨y, ?_, rfl⟩
    obtain ⟨hy, htracked⟩ := hy
    rw [ht.loops] at hy
    exact ⟨hy, htracked.imp id (ht.loop _ r)⟩
  served u hu hfirst := by
    obtain ⟨v, hv, hid⟩ := ht.subscribers u hu
    rw [← hid] at hfirst ⊢
    rw [ht.loops]
    exact h.served v hv hfirst
  told_lt := by
    rw [ht.nextSubscriber]
    exact h.told_lt
  asked := h.asked
  heedful := h.heedful

/-- What is no matter of a subscription or of the caches. -/
theorem Ledger.replace (h : Ledger a t es) : Ledger a t (.replacing :: es) :=
  ⟨h.subscribed.beside rfl rfl fun _ ↦ ⟨rfl, rfl, trivial⟩, h.looped.cons trivial,
    h.counted.cons rfl rfl rfl, h.local_eq, h.caches⟩

theorem Ledger.refuse (h : Ledger a t es) : Ledger a t (.refused :: es) :=
  ⟨h.subscribed.beside rfl rfl fun _ ↦ ⟨rfl, rfl, trivial⟩, h.looped.cons trivial,
    h.counted.cons rfl rfl rfl, h.local_eq, h.caches⟩

/-! ### What is done elsewhere -/

/-- All but the caches of a listener, its subscriptions included, is left as it is. -/
structure Untouched (a : Site) (t t' : Tiers) : Prop where
  listener : t'.listener a.listener = t.listener a.listener
  loop : ∀ i, (t'.listener i).loop = (t.listener i).loop
  loops : t'.loops = t.loops
  next_le : t.next ≤ t'.next
  subscribers : (t'.store a.store).subscribers = (t.store a.store).subscribers
  nextSubscriber : (t'.store a.store).nextSubscriber = (t.store a.store).nextSubscriber

/-- The caches show what they did, too. -/
structure Unseen (a : Site) (t t' : Tiers) : Prop extends Untouched a t t' where
  caches : Caches.of a.near a.store t' = Caches.of a.near a.store t

theorem Untouched.refl (a : Site) (t : Tiers) : Untouched a t t :=
  ⟨rfl, fun _ ↦ rfl, rfl, Nat.le_refl _, rfl, rfl⟩

theorem Untouched.trans {t'' : Tiers} (h : Untouched a t t') (h' : Untouched a t' t'') :
    Untouched a t t'' where
  listener := h'.listener.trans h.listener
  loop i := (h'.loop i).trans (h.loop i)
  loops := h'.loops.trans h.loops
  next_le := Nat.le_trans h.next_le h'.next_le
  subscribers := h'.subscribers.trans h.subscribers
  nextSubscriber := h'.nextSubscriber.trans h.nextSubscriber

theorem Unseen.refl (a : Site) (t : Tiers) : Unseen a t t := ⟨.refl a t, rfl⟩

theorem Unseen.trans {t'' : Tiers} (h : Unseen a t t') (h' : Unseen a t' t'') : Unseen a t t'' :=
  ⟨h.toUntouched.trans h'.toUntouched, h'.caches.trans h.caches⟩

theorem untouched_setStore (a : Site) (t : Tiers) {i : Nat} {x : Store}
    (hx : x.subscribers = (t.store i).subscribers ∧ x.nextSubscriber = (t.store i).nextSubscriber) :
    Untouched a t (t.setStore i x) := by
  refine ⟨rfl, fun _ ↦ rfl, rfl, Nat.le_refl _, ?_, ?_⟩
  · rw [store_setStore]
    split_ifs with hi
    · rw [hi]
      exact hx.1
    · rfl
  · rw [store_setStore]
    split_ifs with hi
    · rw [hi]
      exact hx.2
    · rfl

theorem Looped.untouched (h : Looped a t es) (ht : Untouched a t t') : Looped a t' es :=
  h.unjoined
    { source := by rw [ht.listener]
      channel := by rw [ht.listener]
      loop := fun i _ hr ↦ (ht.loop i).symm.trans hr
      loops := ht.loops
      next_le := ht.next_le
      subscribers := fun u hu ↦ ⟨u, ht.subscribers ▸ hu, rfl⟩
      nextSubscriber := ht.nextSubscriber }

theorem Ledger.unseen (h : Ledger a t es) (ht : Unseen a t t') : Ledger a t' es where
  subscribed := h.subscribed.congr ht.subscribers ht.nextSubscriber
  looped := h.looped.untouched ht.toUntouched
  counted := ht.listener ▸ h.counted
  local_eq := ht.listener ▸ h.local_eq
  caches := ht.caches.trans h.caches

/-- Somebody uses the caches. -/
theorem Ledger.touch (h : Ledger a t es) (ht : Untouched a t t') :
    Ledger a t' (.touched (Caches.of a.near a.store t') :: es) where
  subscribed := (h.subscribed.congr ht.subscribers ht.nextSubscriber).beside rfl rfl
    fun _ ↦ ⟨rfl, rfl, trivial⟩
  looped := (h.looped.untouched ht).cons trivial
  counted := (ht.listener ▸ h.counted : Counted (t'.listener a.listener) es).cons rfl rfl rfl
  local_eq := ht.listener ▸ h.local_eq
  caches := rfl

/-! ### The listener and its loops -/

/-- The listener goes to another stage, or gives its loop up. -/
theorem Ledger.setListener (h : Ledger a t es) {x : Listener}
    (hx : ∃ state loop, x = { t.listener a.listener with state := state, loop := loop })
    (hloop : ∀ r, x.loop = some r → (t.listener a.listener).loop = some r) :
    Ledger a (t.setListener a.listener x) es := by
  have hself : (t.setListener a.listener x).listener a.listener = x :=
    (listener_setListener ..).trans (if_pos rfl)
  have hunjoined : Unjoined a t (t.setListener a.listener x) := by
    refine ⟨?_, ?_, fun i r hr ↦ ?_, rfl, Nat.le_refl _, fun u hu ↦ ⟨u, hu, rfl⟩, rfl⟩
    · rw [hself]
      obtain ⟨state, loop, rfl⟩ := hx
      rfl
    · rw [hself]
      obtain ⟨state, loop, rfl⟩ := hx
      rfl
    · rw [listener_setListener] at hr
      split_ifs at hr with hi
      · exact hi ▸ hloop r hr
      · exact hr
  obtain ⟨state, loop, rfl⟩ := hx
  refine ⟨h.subscribed, h.looped.unjoined hunjoined, ?_, ?_, h.caches⟩
  · rw [hself]
    exact ⟨h.counted.received, h.counted.applied, h.counted.ignored, h.counted.failed⟩
  · rw [hself]
    exact h.local_eq

theorem Ledger.setStage (h : Ledger a t es) (state : ListenerState) :
    Ledger a (t.setStage a.listener state) es :=
  h.setListener ⟨state, _, rfl⟩ fun _ hr ↦ hr

theorem Ledger.takeLoop (h : Ledger a t es) : Ledger a (t.takeLoop a.listener).2 es :=
  h.setListener ⟨_, none, rfl⟩ fun _ hr ↦ absurd hr.symm (Option.some_ne_none _)

/-- A loop changes that goes on for its subscription; it may have been told to end. -/
theorem Looped.setLoop (h : Looped a t es) (news : List Event) {r : Nat} {y : Loop}
    (hr : r ∈ t.loops) (hlistener : y.listener = (t.loop r).listener)
    (hsource : y.source = (t.loop r).source)
    (hsubscription : y.subscription = (t.loop r).subscription)
    (hend : y.ended = (t.loop r).ended)
    (htold : news = [] ∧ y.cancelled = (t.loop r).cancelled ∨ news = [.told y.subscription] ∧
      y.cancelled = true ∧ (t.listener a.listener).loop = some r) :
    Looped a (t.setLoop r y) (news ++ es) := by
  have hloops : ∀ i : Nat, (t.setLoop r y).loops[i]? = if i = r then some y else t.loops[i]? :=
    fun i ↦ Dict.getElem?_insert ..
  have hbefore := getElem?_loops hr
  have hapart : Apart a (t.setLoop r y) := by
    refine h.apart.mono (Nat.le_refl _) fun i z hz ↦ ?_
    obtain ⟨hz, htracked⟩ := hz
    rw [hloops] at hz
    split_ifs at hz with hir
    · obtain rfl := Option.some.inj hz
      rw [hend, hir] at htracked
      rw [hir]
      exact ⟨_, ⟨hbefore, htracked⟩, hsubscription.symm⟩
    · exact ⟨z, ⟨hz, htracked⟩, rfl⟩
  refine ⟨h.source, h.channel, h.others, fun i hi ↦ ?_, fun i z hz hended ↦ ?_, hapart,
    fun u hu hfirst ↦ ?_, fun i hi ↦ ?_, fun i channel hi ↦ ?_, ?_⟩
  · exact Std.ExtTreeMap.mem_insert.mpr (Or.inr (h.anchored i hi))
  · rw [hloops] at hz
    split_ifs at hz with hir
    · obtain rfl := Option.some.inj hz
      rw [hend] at hended
      obtain ⟨hlt, hmine, hstore, hfirst, hcancelled⟩ := h.live r _ hbefore hended
      rw [← hsubscription] at hfirst hcancelled
      refine ⟨hir ▸ hlt, hlistener.trans hmine, hsource.trans hstore, hfirst, ?_⟩
      rcases htold with ⟨rfl, hsame⟩ | ⟨rfl, htrue, -⟩
      · rw [hsame]
        exact hcancelled
      · exact iff_of_true htrue List.mem_cons_self
    · obtain ⟨hlt, hmine, hstore, hfirst, hcancelled⟩ := h.live i z hz hended
      refine ⟨hlt, hmine, hstore, hfirst, hcancelled.trans ?_⟩
      rcases htold with ⟨rfl, -⟩ | ⟨rfl, -, hloop⟩
      · rfl
      · refine ⟨List.mem_cons_of_mem _, fun hi ↦ (List.mem_cons.mp hi).resolve_left fun heq ↦ ?_⟩
        exact hir (h.apart.eq_of i r z _ ⟨hz, Or.inl hended⟩ ⟨hbefore, Or.inr hloop⟩
          ((Event.told.inj heq).trans hsubscription))
  · obtain ⟨i, z, hi, hended, hserves⟩ := h.served u hu hfirst
    by_cases hir : i = r
    · rw [hir, hbefore] at hi
      obtain rfl := Option.some.inj hi
      exact ⟨r, y, (hloops r).trans (if_pos rfl), hend.trans hended, hsubscription.trans hserves⟩
    · exact ⟨i, z, (hloops i).trans ((if_neg hir).trans hi), hended, hserves⟩
  · rcases htold with ⟨rfl, -⟩ | ⟨rfl, -, hloop⟩
    · exact h.told_lt i hi
    · rcases List.mem_cons.mp hi with heq | hi
      · rw [Event.told.inj heq, hsubscription]
        exact h.apart.issued r _ ⟨hbefore, Or.inr hloop⟩
      · exact h.told_lt i hi
  · rcases htold with ⟨rfl, -⟩ | ⟨rfl, -⟩
    · exact h.asked i channel hi
    · exact h.asked i channel ((List.mem_cons.mp hi).resolve_left fun heq ↦ by cases heq)
  · rcases htold with ⟨rfl, -⟩ | ⟨rfl, -⟩
    · exact h.heedful
    · exact heedful_cons h.heedful fun _ _ heq ↦ by cases heq

/-- A loop has waited again. -/
theorem Ledger.setSince (h : Ledger a t es) {r : Nat} (hr : r ∈ t.loops) (n : Nat) :
    Ledger a (t.setLoop r { t.loop r with since := n }) es :=
  ⟨h.subscribed, h.looped.setLoop [] hr rfl rfl rfl rfl (Or.inl ⟨rfl, rfl⟩), h.counted,
    h.local_eq, h.caches⟩

/-- The loop that the listener is responsible for is told to end. -/
theorem Ledger.cancelLoop (h : Ledger a t es) {r : Nat}
    (hr : (t.listener a.listener).loop = some r) :
    Ledger a (t.cancelLoop r) (.told (t.loop r).subscription :: es) where
  subscribed := h.subscribed.beside rfl rfl fun _ ↦ ⟨rfl, rfl, trivial⟩
  looped := h.looped.setLoop [_] (h.looped.anchored r hr) rfl rfl rfl rfl
    (Or.inr ⟨rfl, rfl, hr⟩)
  counted := h.counted.cons rfl rfl rfl
  local_eq := h.local_eq
  caches := h.caches

/-! ### The end of a loop -/

theorem store_closeLoop (t : Tiers) (r i : Nat) :
    (t.closeLoop r).store i = if (t.loop r).source = .store i then
      (t.store i).unsubscribe (t.loop r).subscription else t.store i := by
  change (t.unsubscribe (t.loop r).source (t.loop r).subscription).store i = _
  cases (t.loop r).source with
  | store s =>
    refine (store_setStore t s i _).trans ?_
    by_cases hi : i = s
    · rw [if_pos hi, if_pos (congrArg Source.store hi.symm), hi]
    · rw [if_neg hi, if_neg fun heq ↦ hi (Source.store.inj heq).symm]
  | server s => rfl

theorem loops_closeLoop (t : Tiers) (r i : Nat) :
    (t.closeLoop r).loops[i]? = if i = r then some { t.loop r with ended := true }
      else t.loops[i]? := by
  refine (Dict.getElem?_insert ..).trans ?_
  rw [loops_unsubscribe]

theorem caches_closeLoop (t : Tiers) (r n s : Nat) :
    Caches.of n s (t.closeLoop r) = Caches.of n s t := by
  unfold Caches.of
  rw [localTier_closeLoop, store_closeLoop]
  split_ifs <;> rfl

/-- A loop is gone that need not have been one of the listener. -/
theorem Looped.closeLoop (h : Looped a t es) (r : Nat) : Looped a (t.closeLoop r) es := by
  have hlistener := listener_closeLoop t r
  have hnext : ((t.closeLoop r).store a.store).nextSubscriber =
      (t.store a.store).nextSubscriber := by
    rw [store_closeLoop]
    split_ifs <;> rfl
  have hapart : Apart a (t.closeLoop r) := by
    refine h.apart.mono (Nat.le_of_eq hnext.symm) fun i y hy ↦ ?_
    obtain ⟨hy, htracked⟩ := hy
    rw [hlistener] at htracked
    rw [loops_closeLoop] at hy
    split_ifs at hy with hir
    · obtain rfl := Option.some.inj hy
      have hloop := htracked.resolve_left (by simp)
      exact ⟨t.loop r, ⟨hir ▸ getElem?_loops (h.anchored i hloop), Or.inr hloop⟩, rfl⟩
    · exact ⟨y, ⟨hy, htracked⟩, rfl⟩
  refine ⟨?_, ?_, fun i hi ↦ ?_, fun i hi ↦ ?_, fun i y hy hended ↦ ?_, hapart,
    fun u hu hfirst ↦ ?_, ?_, h.asked, h.heedful⟩
  · rw [hlistener]
    exact h.source
  · rw [hlistener]
    exact h.channel
  · rw [hlistener]
    exact h.others i hi
  · rw [hlistener] at hi
    refine Std.ExtTreeMap.mem_insert.mpr (Or.inr ?_)
    rw [loops_unsubscribe]
    exact h.anchored i hi
  · rw [loops_closeLoop] at hy
    split_ifs at hy with hir
    · rw [← Option.some.inj hy] at hended
      cases hended
    · obtain ⟨hlt, hrest⟩ := h.live i y hy hended
      refine ⟨?_, hrest⟩
      unfold Tiers.closeLoop unsubscribe
      dsimp only
      split <;> exact hlt
  · rw [store_closeLoop] at hu
    have hmem : u ∈ (t.store a.store).subscribers := by
      split_ifs at hu
      · exact (List.mem_filter.mp hu).1
      · exact hu
    obtain ⟨i, y, hi, hended, hserves⟩ := h.served u hmem hfirst
    refine ⟨i, y, ?_, hended, hserves⟩
    rw [loops_closeLoop]
    split_ifs with hir
    · -- the loop that has gone has taken its subscription along
      rw [hir] at hi
      have hsource := (h.live r y hi hended).2.2.1
      rw [loop_of_getElem? hi, if_pos hsource] at hu
      have hne := (List.mem_filter.mp hu).2
      exact absurd hserves.symm (of_decide_eq_true hne)
    · exact hi
  · rw [hnext]
    exact h.told_lt

/-- A stop ends a subscription, which need not have been one of the listener. -/
theorem Ledger.closeLoop (h : Ledger a t es) (r : Nat) :
    Ledger a (t.closeLoop r) (.closed (t.loop r).source (t.loop r).subscription :: es) where
  subscribed := by
    rw [store_closeLoop]
    split_ifs with hsource
    · rw [hsource]
      exact h.subscribed.unsubscribe (Or.inr rfl)
    · exact h.subscribed.beside rfl rfl
        fun i ↦ ⟨if_neg fun hboth ↦ hsource hboth.1, rfl, trivial⟩
  looped := (h.looped.closeLoop r).cons trivial
  counted := by
    rw [listener_closeLoop]
    exact h.counted.cons rfl rfl rfl
  local_eq := by
    rw [listener_closeLoop]
    exact h.local_eq
  caches := (caches_closeLoop t r _ _).trans h.caches

/-- A loop of the listener ends by itself: it was told to, or it has accounted for all that was
sent. -/
theorem Ledger.endLoop (h : Ledger a t es) {r : Nat} (hr : r ∈ t.loops)
    (hended : (t.loop r).ended = false)
    (hcovers : Untold a.store (t.loop r).subscription es →
      Covers (taken (t.loop r).subscription es) (sent a.store (t.loop r).subscription es)) :
    Ledger a (t.endLoop r) (.left (t.loop r).subscription :: es) := by
  obtain ⟨-, hlistener, hsource, -, -⟩ := h.looped.live r _ (getElem?_loops hr) hended
  have hclosed : Ledger a (t.closeLoop r) (.left (t.loop r).subscription :: es) := by
    refine ⟨?_, (h.looped.closeLoop r).cons trivial, ?_, ?_,
      (caches_closeLoop t r _ _).trans h.caches⟩
    · rw [store_closeLoop, if_pos hsource]
      exact h.subscribed.unsubscribe (Or.inl ⟨rfl, fun _ ↦ hcovers⟩)
    · rw [listener_closeLoop]
      exact h.counted.cons rfl rfl rfl
    · rw [listener_closeLoop]
      exact h.local_eq
  unfold Tiers.endLoop
  dsimp only
  rw [hlistener]
  split_ifs
  · exact hclosed.setListener ⟨.stopped, _, rfl⟩ fun _ hi ↦ hi
  · exact hclosed

end Notice

end TwoTier
