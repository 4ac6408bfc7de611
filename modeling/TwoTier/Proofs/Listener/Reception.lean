import TwoTier.Proofs.Listener.Ledger
import TwoTier.Proofs.Store.Expiry

/-!
# What a listener is sent and receives

The accounts of a listener (`Notice.Ledger`) are kept when payloads are published and when it
subscribes, and a step of a receive loop enters what the loop has done (`Notice.Ledger.stepLoop`).
What nobody holds any more is given up beside it (`Notice.unseen_release`).
-/

set_option autoImplicit false
set_option relaxedAutoImplicit false

namespace TwoTier

namespace Notice

open Tiers

variable {a : Site} {t t' : Tiers} {es : List Event}

/-! ### The store -/

/-- What shows of a store is as it was. -/
def SameShown (x x' : Store) : Prop := x'.data = x.data ∧ x'.hits = x.hits ∧ x'.misses = x.misses

theorem caches_setStore {n s : Nat} {x : Store} (hx : SameShown (t.store s) x) :
    Caches.of n s (t.setStore s x) = Caches.of n s t := by
  unfold Caches.of
  rw [store_setStore, if_pos rfl, hx.1, hx.2.1, hx.2.2]
  rfl

/-- A store is put back as it is. -/
theorem unseen_setStore_same (a : Site) (t : Tiers) (i : Nat) :
    Unseen a t (t.setStore i (t.store i)) := by
  have hsame : ∀ j, (t.setStore i (t.store i)).store j = t.store j := by
    intro j
    rw [store_setStore]
    split_ifs with hj
    · rw [hj]
    · rfl
  refine ⟨untouched_setStore a t ⟨rfl, rfl⟩, ?_⟩
  unfold Caches.of
  rw [hsame]
  rfl

theorem sameShown_whenOnline {α : Type} {f : Store → Outcome α × Store}
    (hf : ∀ x, SameShown x (f x).2) (x : Store) : SameShown x (Store.whenOnline f x).2 := by
  unfold Store.whenOnline
  split
  · exact ⟨rfl, rfl, rfl⟩
  · exact hf x

/-- No subscription is new. -/
theorem Looped.setStore (h : Looped a t es) {x : Store} (hfollows : (t.store a.store).Follows x)
    (hnext : x.nextSubscriber = (t.store a.store).nextSubscriber) :
    Looped a (t.setStore a.store x) es := by
  have hstore : (t.setStore a.store x).store a.store = x :=
    (store_setStore t _ _ _).trans (if_pos rfl)
  refine h.unjoined ⟨rfl, rfl, fun _ _ hr ↦ hr, rfl, Nat.le_refl _, fun u hu ↦ ?_, ?_⟩
  · rw [hstore] at hu
    exact hfollows.exists_of_mem hnext hu
  · rw [hstore, hnext]

/-- Something happens to a store that is no matter of its data. -/
theorem Ledger.setStore (h : Ledger a t es) {x : Store} {e : Event}
    (hsubscribed : Subscribed a.store a.first x (e :: es))
    (hfollows : (t.store a.store).Follows x)
    (hnext : x.nextSubscriber = (t.store a.store).nextSubscriber)
    (hshown : SameShown (t.store a.store) x) (he : e.Plain)
    (hreplay : replay a.shown (e :: es) = replay a.shown es) :
    Ledger a (t.setStore a.store x) (e :: es) where
  subscribed := by
    rw [store_setStore, if_pos rfl]
    exact hsubscribed
  looped := (h.looped.setStore hfollows hnext).cons he
  counted := by
    cases e with
    | took i d => exact he.elim
    | _ => exact h.counted.cons rfl rfl rfl
  local_eq := h.local_eq
  caches := (caches_setStore hshown).trans (h.caches.trans hreplay.symm)

theorem subscribe_snd_of_fault {x : Store} {channel : String} {f : Fault}
    (h : (x.subscribe channel).1 = .fault f) : (x.subscribe channel).2 = x := by
  unfold Store.subscribe Store.whenOnline at h ⊢
  split_ifs at h ⊢
  rfl

/-- Either all payloads are published, or nothing happens. -/
theorem publishMany_cases (channel : String) (payloads : List String) (x : Store) :
    (x.publishMany channel payloads).1 = .ok () ∨
      ∃ f, x.publishMany channel payloads = (.fault f, x) := by
  by_cases hoffline : x.offline = true
  · cases payloads with
    | nil => exact Or.inl rfl
    | cons payload rest =>
      refine Or.inr ⟨.refused, ?_⟩
      unfold Store.publishMany Store.publish Store.whenOnline
      rw [if_pos hoffline]
  · refine Or.inl ?_
    induction payloads generalizing x with
    | nil => rfl
    | cons payload rest ih =>
      unfold Store.publishMany Store.publish Store.whenOnline
      rw [if_neg hoffline]
      exact ih _ hoffline

/-- A payload is published. -/
theorem Ledger.publish (h : Ledger a t es) {channel payload : String} {u : Unit}
    (hok : ((t.store a.store).publish channel payload).1 = .ok u) :
    Ledger a (t.setStore a.store ((t.store a.store).publish channel payload).2)
      (.published channel payload :: es) := by
  refine h.setStore (h.subscribed.publish channel payload hok) (Store.follows_publish _ _ _) ?_
    (sameShown_whenOnline (fun _ ↦ ⟨rfl, rfl, rfl⟩) _) trivial rfl
  unfold Store.publish Store.whenOnline
  split <;> rfl

/-- The subscriptions to a channel are dropped. -/
theorem Ledger.disconnect (h : Ledger a t es) (channel : String) :
    Ledger a (t.setStore a.store ((t.store a.store).disconnect channel))
      (.disconnected channel :: es) :=
  h.setStore (h.subscribed.disconnect channel) (Store.follows_disconnect _ _) rfl ⟨rfl, rfl, rfl⟩
    trivial rfl

/-- Payloads are published one after the other, the first one first. -/
theorem Ledger.publishMany (h : Ledger a t es) {channel : String} {payloads : List String}
    {u : Unit} (hok : ((t.store a.store).publishMany channel payloads).1 = .ok u) :
    Ledger a (t.setStore a.store ((t.store a.store).publishMany channel payloads).2)
      ((payloads.map (.published channel)).reverse ++ es) := by
  induction payloads generalizing t es with
  | nil => exact h.unseen (unseen_setStore_same a t a.store)
  | cons payload rest ih =>
    unfold Store.publishMany at hok ⊢
    cases hfirst : (t.store a.store).publish channel payload with
    | mk o x =>
      rw [hfirst] at hok
      cases o with
      | ok u =>
        have hpublished := h.publish (congrArg Prod.fst hfirst)
        rw [hfirst] at hpublished
        have hstore := (store_setStore t a.store a.store x).trans (if_pos rfl)
        have hrest := ih hpublished (by rw [hstore]; exact hok)
        rw [hstore, Tiers.setStore_setStore] at hrest
        rw [List.map_cons, List.reverse_cons, List.append_assoc]
        exact hrest
      | fault f => cases hok
      | overflow => cases hok

theorem loops_startLoop (t : Tiers) (l i r : Nat) :
    (t.startLoop l i).loops[r]? = if r = t.next then
      some ⟨l, (t.listener l).source, i, false, false, 0⟩ else t.loops[r]? :=
  Dict.getElem?_insert ..

theorem listener_startLoop (t : Tiers) (l i j : Nat) :
    (t.startLoop l i).listener j = if j = l then
      { t.listener l with state := .running, loop := some t.next } else t.listener j :=
  listener_setListener ..

/-- What a start leaves tracked is the new loop, or was tracked before with an earlier subscription.
-/
theorem tracked_startLoop (h : Apart a t) {x : Store} {i : Nat}
    (hissued : i = (t.store a.store).nextSubscriber) {r : Nat} {y : Loop}
    (hy : Tracked a ((t.setStore a.store x).startLoop a.listener i) r y) :
    r = t.next ∧ y.subscription = i ∨ Tracked a t r y ∧ y.subscription < i := by
  obtain ⟨hy, htracked⟩ := hy
  rw [listener_startLoop, if_pos rfl] at htracked
  rw [loops_startLoop] at hy
  split_ifs at hy with hr
  · exact Or.inl ⟨hr, by rw [← Option.some.inj hy]⟩
  · have hlive := htracked.resolve_right fun heq ↦ hr (Option.some.inj heq).symm
    have hwas : Tracked a t r y := ⟨hy, Or.inl hlive⟩
    exact Or.inr ⟨hwas, hissued ▸ h.issued r y hwas⟩

theorem Apart.startLoop (h : Apart a t) {x : Store} {i : Nat}
    (hissued : i = (t.store a.store).nextSubscriber) (hnext : x.nextSubscriber = i + 1) :
    Apart a ((t.setStore a.store x).startLoop a.listener i) where
  issued r y hy := by
    have hstore : ((t.setStore a.store x).startLoop a.listener i).store a.store = x :=
      (store_setStore t _ _ _).trans (if_pos rfl)
    rw [hstore, hnext]
    rcases tracked_startLoop h hissued hy with ⟨-, heq⟩ | ⟨-, hlt⟩
    · exact Nat.lt_succ_of_le (Nat.le_of_eq heq)
    · exact Nat.lt_succ_of_lt hlt
  eq_of r r' y y' hy hy' heq := by
    rcases tracked_startLoop h hissued hy with ⟨hr, hsub⟩ | ⟨hwas, hlt⟩ <;>
      rcases tracked_startLoop h hissued hy' with ⟨hr', hsub'⟩ | ⟨hwas', hlt'⟩
    · exact hr.trans hr'.symm
    · omega
    · omega
    · exact h.eq_of r r' y y' hwas hwas' heq

/-- A new loop has a new subscription. -/
theorem Looped.startLoop (h : Looped a t es) {x : Store} {i : Nat} (hi : a.first ≤ i)
    (hissued : i = (t.store a.store).nextSubscriber) (hnext : x.nextSubscriber = i + 1)
    (hsubscribers : ∀ u ∈ x.subscribers, u ∈ (t.store a.store).subscribers ∨ u.id = i) :
    Looped a ((t.setStore a.store x).startLoop a.listener i) (.subscribed i a.channel :: es) := by
  have hloops : ∀ r, ((t.setStore a.store x).startLoop a.listener i).loops[r]? = if r = t.next then
      some ⟨a.listener, (t.listener a.listener).source, i, false, false, 0⟩ else t.loops[r]? :=
    loops_startLoop (t.setStore a.store x) a.listener i
  have hlistener : ∀ j, ((t.setStore a.store x).startLoop a.listener i).listener j =
      if j = a.listener then { t.listener a.listener with state := .running, loop := some t.next }
      else t.listener j :=
    listener_startLoop (t.setStore a.store x) a.listener i
  have hself := (hlistener a.listener).trans (if_pos rfl)
  have hstore : ((t.setStore a.store x).startLoop a.listener i).store a.store = x :=
    (store_setStore t _ _ _).trans (if_pos rfl)
  have hmem : ∀ j, .told j ∈ .subscribed i a.channel :: es ↔ .told j ∈ es :=
    fun j ↦ List.mem_cons.trans (or_iff_right fun heq ↦ by cases heq)
  have htold : ∀ j, .told j ∈ es → j < i := fun j hj ↦ hissued ▸ h.told_lt j hj
  refine ⟨?_, ?_, fun j hj ↦ ?_, fun r hr ↦ ?_, fun r y hy hended ↦ ?_,
    h.apart.startLoop hissued hnext, fun u hu hfirst ↦ ?_, fun j hj ↦ ?_, fun j channel hj ↦ ?_,
    heedful_cons h.heedful fun j d heq ↦ by cases heq⟩
  · rw [hself]
    exact h.source
  · rw [hself]
    exact h.channel
  · rw [hlistener, if_neg hj]
    exact h.others j hj
  · rw [hself] at hr
    rw [← Option.some.inj hr]
    exact Std.ExtTreeMap.mem_insert_self
  · rw [hloops] at hy
    rw [hmem]
    split_ifs at hy with hr
    · obtain rfl := Option.some.inj hy
      refine ⟨hr ▸ Nat.lt_succ_self t.next, rfl, h.source, hi, iff_of_false Bool.false_ne_true ?_⟩
      exact fun hj ↦ Nat.lt_irrefl i (htold i hj)
    · obtain ⟨hlt, hrest⟩ := h.live r y hy hended
      exact ⟨Nat.lt_succ_of_lt hlt, hrest⟩
  · rw [hstore] at hu
    rcases hsubscribers u hu with hu | hid
    · obtain ⟨r, y, hy, hended, hserves⟩ := h.served u hu hfirst
      refine ⟨r, y, ?_, hended, hserves⟩
      rw [hloops, if_neg (Nat.ne_of_lt (h.live r y hy hended).1)]
      exact hy
    · exact ⟨t.next, _, (hloops t.next).trans (if_pos rfl), rfl, hid.symm⟩
  · rw [hstore, hnext]
    exact Nat.lt_succ_of_lt (htold j ((hmem j).mp hj))
  · rcases List.mem_cons.mp hj with heq | hj
    · exact (Event.subscribed.inj heq).2
    · exact h.asked j channel hj

/-- A listener subscribes, and has a loop for that. -/
theorem Ledger.subscribe (h : Ledger a t es) {i : Nat}
    (hok : ((t.store a.store).subscribe a.channel).1 = .ok i) :
    Ledger a ((t.setStore a.store ((t.store a.store).subscribe a.channel).2).startLoop a.listener i)
      (.subscribed i a.channel :: es) := by
  have hsubscribed := h.subscribed.subscribe hok
  have hshown : SameShown (t.store a.store) ((t.store a.store).subscribe a.channel).2 :=
    sameShown_whenOnline (fun _ ↦ ⟨rfl, rfl, rfl⟩) _
  have hlooped : Looped a
      ((t.setStore a.store ((t.store a.store).subscribe a.channel).2).startLoop a.listener i)
      (.subscribed i a.channel :: es) := by
    unfold Store.subscribe Store.whenOnline at hok ⊢
    split_ifs at hok ⊢
    have hi := (Outcome.ok.inj hok).symm
    refine h.looped.startLoop (hi ▸ h.subscribed.first_le) hi (congrArg Nat.succ hi.symm)
      fun u hu ↦ ?_
    rcases List.mem_append.mp hu with hu | hu
    · exact Or.inl hu
    · rw [List.mem_singleton.mp hu]
      exact Or.inr hi.symm
  have hself := listener_startLoop
    (t.setStore a.store ((t.store a.store).subscribe a.channel).2) a.listener i a.listener
  rw [if_pos rfl] at hself
  refine ⟨?_, hlooped, ?_, ?_, (caches_setStore hshown).trans h.caches⟩
  · change Subscribed _ _ ((t.setStore a.store _).store a.store) _
    rw [store_setStore, if_pos rfl]
    exact hsubscribed
  · rw [hself]
    exact ⟨h.counted.received, h.counted.applied, h.counted.ignored, h.counted.failed⟩
  · rw [hself]
    exact h.local_eq

/-! ### Receive loops -/

/-- A listener has counted, and nothing else has become of it. -/
structure Tallied (x x' : Listener) : Prop where
  source : x'.source = x.source
  channel : x'.channel = x.channel
  loop : x'.loop = x.loop
  local_eq : x'.localTier = x.localTier

/-- A loop has taken what its subscription received, and has done with the caches and the counters
what follows from that. -/
theorem Ledger.took (h : Ledger a t es) {i : Nat} {d : Delivery} (hi : a.first ≤ i)
    (htold : .told i ∉ es) (hd : ((t.store a.store).receive i).1 = d) (hpending : d ≠ .pending)
    (hended : d ≠ .ended) {x : Listener} (hcounted : Counted x (.took i d :: es))
    (hx : Tallied (t.listener a.listener) x)
    (hstore : t'.store a.store = ((t.store a.store).receive i).2)
    (hlistener : ∀ j, t'.listener j = if j = a.listener then x else t.listener j)
    (hloops : t'.loops = t.loops) (hnext : t'.next = t.next)
    (hcaches : Caches.of a.near a.store t' = replay a.shown (.took i d :: es)) :
    Ledger a t' (.took i d :: es) := by
  have hself := (hlistener a.listener).trans (if_pos rfl)
  have hunjoined : Unjoined a t t' := by
    refine ⟨?_, ?_, fun j r hr ↦ ?_, hloops, Nat.le_of_eq hnext.symm, fun u hu ↦ ?_, ?_⟩
    · rw [hself, hx.source]
    · rw [hself, hx.channel]
    · rw [hlistener] at hr
      split_ifs at hr with hj
      · rw [hj, ← hx.loop]
        exact hr
      · exact hr
    · rw [hstore] at hu
      exact (Store.follows_receive i (t.store a.store)).exists_of_mem rfl hu
    · rw [hstore]
      rfl
  have hlooped : Looped a t' (.took i d :: es) := by
    refine (h.looped.unjoined hunjoined).enter (fun j channel heq ↦ by cases heq)
      (fun j heq ↦ by cases heq) fun j d' heq ↦ ?_
    rw [← (Event.took.inj heq).1]
    exact htold
  subst hd
  refine ⟨?_, hlooped, ?_, ?_, hcaches⟩
  · rw [hstore]
    exact h.subscribed.receive hi hpending hended
  · rw [hself]
    exact hcounted
  · rw [hself, hx.local_eq]
    exact h.local_eq

theorem Counted.apply {x : Listener} (h : Counted x es) (i : Nat) {p : String} (hp : Names p) :
    Counted { x with received := x.received + 1, applied := x.applied + 1 }
      (.took i (.payload p) :: es) := by
  refine ⟨?_, ?_, ?_, ?_⟩ <;> dsimp only
  · rw [h.received]
    omega
  · rw [h.applied, List.countP_cons]
    simp [Event.applies, hp]
  · rw [h.ignored, List.countP_cons]
    simp [Event.ignores, hp]
  · rw [h.failed, List.countP_cons]
    simp [Event.fails]

theorem Counted.ignore {x : Listener} (h : Counted x es) (i : Nat) {p : String} (hp : ¬ Names p) :
    Counted { x with received := x.received + 1, ignored := x.ignored + 1 }
      (.took i (.payload p) :: es) := by
  refine ⟨?_, ?_, ?_, ?_⟩ <;> dsimp only
  · rw [h.received]
    omega
  · rw [h.applied, List.countP_cons]
    simp [Event.applies, hp]
  · rw [h.ignored, List.countP_cons]
    simp [Event.ignores, hp]
  · rw [h.failed, List.countP_cons]
    simp [Event.fails]

theorem Counted.fail {x : Listener} (h : Counted x es) (i k : Nat) :
    Counted { x with received := x.received + 1, failed := x.failed + 1 }
      (.took i (.lagged k) :: es) := by
  refine ⟨?_, ?_, ?_, ?_⟩ <;> dsimp only
  · rw [h.received]
    omega
  · rw [h.applied, List.countP_cons]
    simp [Event.applies]
  · rw [h.ignored, List.countP_cons]
    simp [Event.ignores]
  · rw [h.failed, List.countP_cons]
    simp [Event.fails]

/-- A notice takes its key out of the local tier, and does nothing else to the caches. -/
theorem caches_drop (t : Tiers) (n s : Nat) (p : String) :
    Caches.of n s (t.setLocal n ((t.localTier n).drop p)) = (Caches.of n s t).without p := by
  unfold Caches.of Caches.without
  rw [localTier_setLocal, if_pos rfl]
  unfold LocalCache.drop
  dsimp only
  congr 1
  funext k
  rw [Table.get?_remove]

theorem sameShown_receive (x : Store) (i : Nat) : SameShown x (x.receive i).2 := ⟨rfl, rfl, rfl⟩

/-- A payload has been taken and applied. -/
theorem Ledger.took_payload (h : Ledger a t es) {i : Nat} {p : String} (hi : a.first ≤ i)
    (htold : .told i ∉ es) (hd : ((t.store a.store).receive i).1 = .payload p) :
    Ledger a ((t.setStore a.store ((t.store a.store).receive i).2).applyNotice a.listener p)
      (.took i (.payload p) :: es) := by
  have hstore :=
    (store_setStore t a.store a.store ((t.store a.store).receive i).2).trans (if_pos rfl)
  have hcaches : Caches.of a.near a.store (t.setStore a.store ((t.store a.store).receive i).2) =
      replay a.shown es :=
    (caches_setStore (sameShown_receive _ i)).trans h.caches
  unfold applyNotice
  dsimp only
  split_ifs with hnone
  · have hp : ¬ Names p := by
      rintro ⟨hempty, hpattern⟩
      rcases hnone with hnone | hnone
      · exact hempty hnone
      · rw [hpattern] at hnone
        cases hnone
    refine h.took hi htold hd (by simp) (by simp) (h.counted.ignore i hp) ⟨rfl, rfl, rfl, rfl⟩
      hstore (fun j ↦ listener_setListener _ _ j _) rfl rfl ?_
    refine hcaches.trans ?_
    rw [replay, if_neg hp]
  · have hp : Names p := by
      obtain ⟨hempty, hpattern⟩ := not_or.mp hnone
      exact ⟨hempty, eq_false_of_ne_true hpattern⟩
    refine h.took hi htold hd (by simp) (by simp) (h.counted.apply i hp) ⟨rfl, rfl, rfl, rfl⟩
      hstore (fun j ↦ listener_setListener _ _ j _) rfl rfl ?_
    rw [replay, if_pos hp, ← hcaches, ← caches_drop]
    have hlocal : ((t.setStore a.store ((t.store a.store).receive i).2).listener
        a.listener).localTier = a.near := h.local_eq
    rw [hlocal]
    rfl

/-- A loss has been reported. -/
theorem Ledger.took_lagged (h : Ledger a t es) {i k : Nat} (hi : a.first ≤ i)
    (htold : .told i ∉ es) (hd : ((t.store a.store).receive i).1 = .lagged k) :
    Ledger a ((t.setStore a.store ((t.store a.store).receive i).2).failNotice a.listener)
      (.took i (.lagged k) :: es) := by
  have hstore :=
    (store_setStore t a.store a.store ((t.store a.store).receive i).2).trans (if_pos rfl)
  exact h.took hi htold hd (by simp) (by simp) (h.counted.fail i k) ⟨rfl, rfl, rfl, rfl⟩ hstore
    (fun j ↦ listener_setListener _ _ j _) rfl rfl ((caches_setStore
      (sameShown_receive _ i)).trans h.caches)

theorem mem_loops_stepLoop {r : Nat} (hr : r ∈ t.loops) : r ∈ (t.stepLoop r).loops := by
  rcases aside_or_endLoop (l := 0) (s := 0) t r with ⟨-, hloops⟩ | ⟨t', -, hloops, heq⟩
  · rw [hloops]
    exact hr
  · rw [heq]
    refine mem_loops_endLoop ?_
    rw [hloops]
    exact hr

/-- A step of a receive loop. -/
theorem Ledger.stepLoop (h : Ledger a t es) {r : Nat} (hr : r ∈ t.loops)
    (hready : t.loopReady r = true) : Ledger a (t.stepLoop r) (heard t r ++ es) := by
  have hended : (t.loop r).ended = false := by
    by_contra hended
    rw [loopReady, eq_true_of_ne_false hended] at hready
    cases hready
  obtain ⟨-, hlistener, hsource, hfirst, hcancelled⟩ :=
    h.looped.live r _ (getElem?_loops hr) hended
  unfold Tiers.stepLoop heard
  dsimp only
  rw [hended, if_neg Bool.false_ne_true, if_neg Bool.false_ne_true]
  by_cases htold : (t.loop r).cancelled = true
  · rw [if_pos htold, if_pos htold]
    exact h.endLoop hr hended fun huntold ↦ absurd (hcancelled.mp htold) huntold.1
  · rw [if_neg htold, if_neg htold, hsource, hlistener]
    dsimp only
    have huntold : .told (t.loop r).subscription ∉ es := fun hmem ↦ htold (hcancelled.mpr hmem)
    cases hd : ((t.store a.store).receive (t.loop r).subscription).1 with
    | payload p => exact h.took_payload hfirst huntold hd
    | lagged k => exact h.took_lagged hfirst huntold hd
    | ended =>
      -- nothing is left to be received, so that the store is as it was
      dsimp only
      rw [h.subscribed.receive_snd_of_ended hfirst hd]
      have hsame : Ledger a (t.setStore a.store (t.store a.store)) es :=
        h.unseen (unseen_setStore_same a t a.store)
      exact hsame.endLoop hr hended (h.subscribed.covers hfirst (Or.inr hd))
    | pending => exact h

/-! ### Giving up -/

/-- A listener without a loop is given up. -/
theorem unseen_abandonListener {i : Nat} (hi : i ≠ a.listener)
    (hnone : (t.listener i).loop = none) :
    Unseen a t (t.abandonListener i) := by
  have hsame : t.abandonListener i = t.setListener i { t.listener i with loop := none } := by
    unfold abandonListener takeLoop
    rw [hnone]
  rw [hsame]
  refine ⟨⟨?_, fun j ↦ ?_, rfl, Nat.le_refl _, rfl, rfl⟩, rfl⟩
  · rw [listener_setListener, if_neg hi.symm]
  · rw [listener_setListener]
    split_ifs with hj
    · rw [hj, hnone]
    · rfl

/-- Another store is given up. -/
theorem unseen_abandonStore {i : Nat} (hi : i ≠ a.store) : Unseen a t (t.abandonStore i) := by
  have hstore : (t.abandonStore i).store a.store = t.store a.store :=
    (store_setStore t i a.store _).trans (if_neg hi.symm)
  refine ⟨⟨rfl, fun _ ↦ rfl, rfl, Nat.le_refl _, ?_, ?_⟩, ?_⟩
  · rw [hstore]
  · rw [hstore]
  · unfold Caches.of
    rw [hstore]
    rfl

/-- What is given up is neither the listener nor its store, while the listener is held. -/
theorem unseen_release (h : Looped a t es) {held : List Held}
    (hl : Held.listener a.listener ∈ held) :
    Unseen a t (t.release held) := by
  have hlistener : Held.listener a.listener ∈ t.closure held :=
    List.mem_flatMap.mpr ⟨_, hl, List.mem_cons_self⟩
  have hstore : Held.store a.store ∈ t.closure held := by
    refine List.mem_flatMap.mpr ⟨_, hl, List.mem_cons_of_mem _ (List.mem_flatMap.mpr
      ⟨a.listener, List.mem_singleton.mpr rfl, ?_⟩)⟩
    rw [h.source]
    simp
  refine release_of_lost (.refl a) .trans (fun i hi t' ht' ↦ ?_) fun i hi t' _ ↦ ?_
  · have hne : i ≠ a.listener := fun heq ↦ hi (heq ▸ hlistener)
    exact unseen_abandonListener hne ((ht'.loop i).trans (h.others i hne))
  · exact unseen_abandonStore fun heq ↦ hi (heq ▸ hstore)

end Notice

end TwoTier
