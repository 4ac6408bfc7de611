import TwoTier.Proofs.Listener.Lifecycle

/-!
# Every loop of a listener has somebody who tends it

At every moment a receive loop of a listener either is the one that the listener is responsible for,
or somebody waits for its end (`Listener.Tended.owned`). A start that waits holds the lock, and the
listener has no loop meanwhile. From this, and from whether the last start had slipped into a stop,
the stage of the listener follows (`Listener.Tended.honest`, `Listener.Tended.slipped`).

There is one lemma for each thing that changes a listener: what happens beside it, the end of its
own loop, the two halves of a stop, and the halves of a start.
-/

set_option autoImplicit false
set_option relaxedAutoImplicit false

namespace TwoTier

namespace Tiers

variable {l s : Nat} {t t' : Tiers}

theorem listener_closeLoop (t : Tiers) (r i : Nat) :
    (t.closeLoop r).listener i = t.listener i := by
  unfold closeLoop unsubscribe
  dsimp only
  split <;> rfl

theorem receiver?_closeLoop (t : Tiers) (r i : Nat) :
    (t.closeLoop r).receiver? l i = if i = r then none else t.receiver? l i := by
  unfold closeLoop
  dsimp only
  rw [receiver?_setLoop]
  split_ifs with hi
  · simp [Loop.receiver?]
  · unfold receiver?
    rw [loops_unsubscribe]

/-- A listener of a store, with what holds of its loops: they are all known by their numbers and
receive from the channel of the listener. -/
structure Wired (l s : Nat) (t : Tiers) : Prop where
  source : (t.listener l).source = .store s
  anchored : t.Anchored
  issued : (t.store s).Issued
  receives : ∀ r a, t.receiver? l r = some a → r < t.next ∧
    ∃ i, a = (.store s, i) ∧ i < (t.store s).nextSubscriber ∧
      ∀ u ∈ (t.store s).subscribers, u.id = i → u.channel = (t.listener l).channel

/-- Loops may end, and nothing else is changed about a listener and its loops. -/
theorem Wired.mono (h : Wired l s t) (hsource : (t'.listener l).source = (t.listener l).source)
    (hchannel : (t'.listener l).channel = (t.listener l).channel) (hanchored : t'.Anchored)
    (hstore : (t.store s).Follows (t'.store s)) (hnext : t.next ≤ t'.next)
    (hreceiver : ∀ r a, t'.receiver? l r = some a → t.receiver? l r = some a) : Wired l s t' where
  source := hsource.trans h.source
  anchored := hanchored
  issued := hstore.issued h.issued
  receives r a ha := by
    obtain ⟨hlt, i, rfl, hi, hsubscribed⟩ := h.receives r a (hreceiver r a ha)
    refine ⟨Nat.lt_of_lt_of_le hlt hnext, i, rfl, Nat.lt_of_lt_of_le hi hstore.next_le, ?_⟩
    rw [hchannel]
    exact hstore.channel_eq hi hsubscribed

theorem Wired.aside (h : Wired l s t) (ha : Aside l s t t') : Wired l s t' := by
  refine h.mono ha.listener.source ha.listener.channel (ha.anchored h.anchored) ha.store
    ha.next_le fun r a hr ↦ ?_
  rw [ha.receiver] at hr
  exact hr

theorem Wired.setListener (h : Wired l s t) {x : Listener}
    (hsource : x.source = (t.listener l).source) (hchannel : x.channel = (t.listener l).channel)
    (hloop : ∀ r, x.loop = some r → r ∈ t.loops) : Wired l s (t.setListener l x) := by
  refine h.mono ?_ ?_ (fun i r hr ↦ ?_) (.refl _) (Nat.le_refl _) fun _ _ ha ↦ ha
  · rw [listener_setListener, if_pos rfl]
    exact hsource
  · rw [listener_setListener, if_pos rfl]
    exact hchannel
  · rw [listener_setListener] at hr
    split_ifs at hr with hi
    · exact hloop r hr
    · exact h.anchored i r hr

theorem Wired.closeLoop (h : Wired l s t) (r : Nat) : Wired l s (t.closeLoop r) := by
  have haside : Aside l s t (t.unsubscribe (t.loop r).source (t.loop r).subscription) :=
    aside_unsubscribe t _ _
  refine (h.aside haside).mono rfl rfl (fun i j hj ↦ ?_) (.refl _) (Nat.le_refl _)
    fun i a ha ↦ ?_
  · exact Std.ExtTreeMap.mem_insert.mpr (Or.inr (haside.anchored h.anchored i j hj))
  · rw [haside.receiver]
    change (t.closeLoop r).receiver? l i = some a at ha
    rw [receiver?_closeLoop] at ha
    split_ifs at ha
    exact ha

theorem listener_takeLoop (t : Tiers) (l : Nat) :
    (t.takeLoop l).2.listener l = { t.listener l with loop := none } :=
  (listener_setListener t l l _).trans (if_pos rfl)

theorem listener_setStage (t : Tiers) (l : Nat) (state : ListenerState) :
    (t.setStage l state).listener l = { t.listener l with state := state } :=
  (listener_setListener t l l _).trans (if_pos rfl)

theorem Wired.takeLoop (h : Wired l s t) : Wired l s (t.takeLoop l).2 :=
  h.setListener rfl rfl fun _ hr ↦ absurd hr.symm (Option.some_ne_none _)

theorem Wired.setStage (h : Wired l s t) (state : ListenerState) : Wired l s (t.setStage l state) :=
  h.setListener rfl rfl fun r hr ↦ h.anchored l r hr

theorem Wired.cancelLoop (h : Wired l s t) {r : Nat} (hr : r ∈ t.loops) :
    Wired l s (t.cancelLoop r) :=
  h.aside (aside_cancelLoop hr)

theorem receiver?_cancelLoop {r : Nat} (hr : r ∈ t.loops) (i : Nat) :
    (t.cancelLoop r).receiver? l i = t.receiver? l i :=
  (aside_cancelLoop hr : Aside l 0 t (t.cancelLoop r)).receiver i

theorem receiver?_of_ended {r : Nat} (h : (t.loop r).ended = true) : t.receiver? l r = none := by
  unfold receiver?
  cases hr : t.loops[r]? with
  | none => rfl
  | some y =>
    rw [loop_of_getElem? hr] at h
    simp [Loop.receiver?, h]

end Tiers

namespace Listener

open Tiers

/-- What holds at every wait of a world in which a listener is started and stopped. -/
structure Tended (l s : Nat) (h : Heap) (log : Log Mark) : Prop where
  wired : Wired l s h.tiers
  owned : ∀ r, h.tiers.receiver? l r ≠ none → (h.tiers.listener l).loop = some r ∨
    ∃ th, phase th log = .draining r ∨ phase th log = .retiring r
  newest_eq : ∀ r, (h.tiers.listener l).loop = some r → newest log = some r
  honest : ∀ r, (h.tiers.listener l).loop = some r → ¬ Slipped log → ¬ Draining log ∧
    (h.tiers.receiver? l r ≠ none → (h.tiers.listener l).state = .running) ∧
    (h.tiers.receiver? l r = none → (h.tiers.listener l).state = .stopped)
  slipped : ∀ r, (h.tiers.listener l).loop = some r → Slipped log →
    (h.tiers.listener l).state = .stopped ∨
      (h.tiers.listener l).state = .running ∧ Draining log
  free : (h.tiers.listener l).loop = none →
    (h.tiers.listener l).state = .stopped ∨ ∃ th, phase th log ≠ .idle
  retiring : ∀ th r, phase th log = .retiring r →
    (h.waiting (.listener l)).head? = some th ∧ (h.tiers.listener l).loop = none

namespace Tended

variable {l s : Nat} {h h' : Heap} {log : Log Mark} {me : Nat}

/-- What happens beside a listener, while those who wait in a start keep the lock. -/
theorem aside (hc : Tended l s h log) (ha : Aside l s h.tiers h'.tiers)
    (hline : ∀ th, phase th log ≠ .idle → (h.waiting (.listener l)).head? = some th →
      (h'.waiting (.listener l)).head? = some th) : Tended l s h' log where
  wired := hc.wired.aside ha
  owned r hr := by
    rw [ha.receiver] at hr
    rw [ha.listener.loop]
    exact hc.owned r hr
  newest_eq r hr := by
    rw [ha.listener.loop] at hr
    exact hc.newest_eq r hr
  honest r hr hslipped := by
    rw [ha.listener.loop] at hr
    rw [ha.listener.state, ha.receiver]
    exact hc.honest r hr hslipped
  slipped r hr hslipped := by
    rw [ha.listener.loop] at hr
    rw [ha.listener.state]
    exact hc.slipped r hr hslipped
  free hloop := by
    rw [ha.listener.loop] at hloop
    rw [ha.listener.state]
    exact hc.free hloop
  retiring th r hth := by
    obtain ⟨hhead, hloop⟩ := hc.retiring th r hth
    rw [ha.listener.loop]
    refine ⟨hline th (fun hidle ↦ ?_) hhead, hloop⟩
    rw [hidle] at hth
    cases hth

theorem beside (hc : Tended l s h log) {t : Tiers} (ha : Aside l s h.tiers t) :
    Tended l s { h with tiers := t } log :=
  hc.aside ha fun _ _ hhead ↦ hhead

theorem enqueue (hc : Tended l s h log) (m : Lock) (me : Nat) :
    Tended l s (h.enqueue m me) log := by
  refine hc.aside ?_ fun th _ hhead ↦ Heap.head?_enqueue hhead m me
  rw [Heap.tiers_enqueue]
  exact .refl _

theorem leave (hc : Tended l s h log) (hme : phase me log = .idle) (m : Lock) :
    Tended l s (h.leave m me) log :=
  hc.aside (.refl _) fun _ hth hhead ↦ Heap.head?_leave hhead m fun heq ↦ hth (heq ▸ hme)

theorem leaveAll (hc : Tended l s h log) (hme : phase me log = .idle) :
    Tended l s (h.leaveAll me) log :=
  hc.aside (.refl _) fun _ hth hhead ↦ Heap.head?_leaveAll hhead fun heq ↦ hth (heq ▸ hme)

/-- A loop of the listener has ended, and a listener that ran has stopped. -/
private theorem closed (hc : Tended l s h log) {t : Tiers} (hwired : Wired l s t) {r : Nat}
    (hr : h.tiers.receiver? l r ≠ none)
    (hreceiver : ∀ i, t.receiver? l i = if i = r then none else h.tiers.receiver? l i)
    (hloop : (t.listener l).loop = (h.tiers.listener l).loop)
    (hstate : (t.listener l).state = .stopped ∨
      (t.listener l).state = (h.tiers.listener l).state ∧
        (h.tiers.listener l).state ≠ .running) :
    Tended l s { h with tiers := t } log := by
  have hstopped : (h.tiers.listener l).state = .stopped → (t.listener l).state = .stopped := by
    intro heq
    rcases hstate with hstate | ⟨hstate, -⟩
    · exact hstate
    · exact hstate.trans heq
  have hran : (h.tiers.listener l).state = .running → (t.listener l).state = .stopped := by
    intro heq
    rcases hstate with hstate | ⟨-, hne⟩
    · exact hstate
    · exact absurd heq hne
  refine ⟨hwired, fun i hi ↦ ?_, fun i hi ↦ ?_, fun i hi hslipped ↦ ?_, fun i hi hslipped ↦ ?_,
    fun hnone ↦ ?_, fun th i hth ↦ ?_⟩
  · dsimp only at hi ⊢
    rw [hloop]
    rw [hreceiver] at hi
    split_ifs at hi with hir
    · exact absurd rfl hi
    · exact hc.owned i hi
  · dsimp only at hi
    rw [hloop] at hi
    exact hc.newest_eq i hi
  · dsimp only at hi ⊢
    rw [hloop] at hi
    obtain ⟨hdraining, hrunning, -⟩ := hc.honest i hi hslipped
    -- nobody waits for a loop, so that the one that has ended is that of the listener
    have hir : i = r := by
      rcases hc.owned r hr with hown | ⟨th, hth | hth⟩
      · rw [hi] at hown
        exact Option.some.inj hown
      · exact absurd ⟨th, r, hth⟩ hdraining
      · rw [(hc.retiring th r hth).2] at hi
        cases hi
    rw [← hir] at hr hreceiver
    refine ⟨hdraining, fun hsome ↦ ?_, fun _ ↦ hran (hrunning hr)⟩
    rw [hreceiver, if_pos rfl] at hsome
    exact absurd rfl hsome
  · dsimp only at hi ⊢
    rw [hloop] at hi
    rcases hc.slipped i hi hslipped with heq | ⟨heq, -⟩
    · exact Or.inl (hstopped heq)
    · exact Or.inl (hran heq)
  · dsimp only at hnone ⊢
    rw [hloop] at hnone
    rcases hc.free hnone with heq | hth
    · exact Or.inl (hstopped heq)
    · exact Or.inr hth
  · dsimp only
    rw [hloop]
    exact hc.retiring th i hth

/-- The end of a loop of the listener. -/
theorem endLoop (hc : Tended l s h log) {r : Nat} (hl : (h.tiers.loop r).listener = l)
    (hr : h.tiers.receiver? l r ≠ none) :
    Tended l s { h with tiers := h.tiers.endLoop r } log := by
  have hlistener := listener_closeLoop h.tiers r l
  have hwired := hc.wired.closeLoop r
  have hreceiver : ∀ i, (h.tiers.closeLoop r).receiver? l i =
      if i = r then none else h.tiers.receiver? l i :=
    receiver?_closeLoop h.tiers r
  unfold Tiers.endLoop
  dsimp only
  rw [hl, hlistener]
  split_ifs with hrunning
  · refine hc.closed ?_ hr hreceiver ?_ (Or.inl ?_)
    · refine hwired.setListener ?_ ?_ fun i hi ↦ ?_
      · rw [hlistener]
      · rw [hlistener]
      · rw [← hlistener] at hi
        exact hwired.anchored l i hi
    · rw [listener_setListener, if_pos rfl]
    · rw [listener_setListener, if_pos rfl]
  · refine hc.closed hwired hr hreceiver ?_ (Or.inr ⟨?_, hrunning⟩)
    · rw [hlistener]
    · rw [hlistener]

/-! ### The halves of a stop -/

/-- Only one thread is in a start: the one that holds the lock. -/
theorem eq_of_retiring (hc : Tended l s h log)
    (hhead : (h.waiting (.listener l)).head? = some me) {th r : Nat}
    (hth : phase th log = .retiring r) : th = me := by
  have hfirst := (hc.retiring th r hth).1
  rw [hhead] at hfirst
  exact (Option.some.inj hfirst).symm

/-- The loop of the listener is taken over by a thread that waits for its end from now on. -/
private theorem taken (hc : Tended l s h log) (hme : phase me log = .idle) {r : Nat}
    (hloop : (h.tiers.listener l).loop = some r) {e : Mark} (hwired : Wired l s h'.tiers)
    (hnone : (h'.tiers.listener l).loop = none)
    (hreceiver : ∀ i, h'.tiers.receiver? l i = h.tiers.receiver? l i)
    (he : e.phase = .draining r ∨
      e.phase = .retiring r ∧ (h'.waiting (.listener l)).head? = some me) :
    Tended l s h' ((me, e) :: log) := by
  have hmine : phase me ((me, e) :: log) = e.phase := phase_cons_self me e log
  have hbusy : e.phase ≠ .idle := by
    rcases he with he | ⟨he, -⟩ <;> simp [he]
  have hothers : ∀ th, phase th log ≠ .idle → phase th ((me, e) :: log) = phase th log := by
    intro th hth
    refine phase_cons_of_ne (fun heq ↦ hth ?_) e log
    rw [heq]
    exact hme
  have hno : ∀ i, (h'.tiers.listener l).loop ≠ some i := by
    intro i
    rw [hnone]
    exact (Option.some_ne_none i).symm
  refine ⟨hwired, fun i hi ↦ Or.inr ?_, fun i hi ↦ absurd hi (hno i), fun i hi ↦ absurd hi (hno i),
    fun i hi ↦ absurd hi (hno i), fun _ ↦ Or.inr ⟨me, ?_⟩, fun th i hth ↦ ⟨?_, hnone⟩⟩
  · rw [hreceiver] at hi
    rcases hc.owned i hi with hown | ⟨th, hth⟩
    · rw [hloop] at hown
      obtain rfl := Option.some.inj hown
      refine ⟨me, ?_⟩
      rw [hmine]
      exact he.imp id And.left
    · refine ⟨th, ?_⟩
      rw [hothers th (by rcases hth with hth | hth <;> simp [hth])]
      exact hth
  · rw [hmine]
    exact hbusy
  · by_cases hne : th = me
    · rw [hne, hmine] at hth
      rcases he with he | ⟨-, hhead⟩
      · rw [he] at hth
        cases hth
      · rw [hne]
        exact hhead
    · rw [phase_cons_of_ne hne] at hth
      rw [(hc.retiring th i hth).2] at hloop
      cases hloop

/-- A stop takes the loop of the listener over. -/
theorem drain (hc : Tended l s h log) (hme : phase me log = .idle) {r : Nat}
    (hloop : (h.tiers.listener l).loop = some r)
    (htiers : h'.tiers = ((h.tiers.takeLoop l).2.setStage l .stopping).cancelLoop r) :
    Tended l s h' ((me, .drains r) :: log) := by
  have hmade : r ∈ h.tiers.loops := hc.wired.anchored l r hloop
  refine hc.taken hme hloop ?_ ?_ ?_ (Or.inl rfl)
  · rw [htiers]
    exact (hc.wired.takeLoop.setStage .stopping).cancelLoop hmade
  · rw [htiers]
    change (((h.tiers.takeLoop l).2.setStage l .stopping).listener l).loop = none
    rw [listener_setStage, listener_takeLoop]
  · rw [htiers]
    exact receiver?_cancelLoop hmade

/-- A stop has waited long enough: the loop that it has taken over is gone. -/
theorem drained (hc : Tended l s h log) {r : Nat} (hme : phase me log = .draining r) {t : Tiers}
    (hwired : Wired l s t) (hlistener : t.listener l = h.tiers.listener l)
    (hreceiver : ∀ i, t.receiver? l i = if i = r then none else h.tiers.receiver? l i) :
    Tended l s { h with tiers := t.setStage l .stopped } ((me, .ended) :: log) := by
  have hstage := listener_setStage t l .stopped
  rw [hlistener] at hstage
  have hothers : ∀ th i, phase th log = .draining i ∨ phase th log = .retiring i → i ≠ r →
      th ≠ me := by
    intro th i hth hi heq
    rw [heq, hme] at hth
    rcases hth with hth | hth
    · exact hi (Phase.draining.inj hth).symm
    · cases hth
  refine ⟨hwired.setStage .stopped, fun i hi ↦ ?_, fun i hi ↦ ?_, fun i hi hslipped ↦ ?_,
    fun i hi _ ↦ ?_, fun _ ↦ ?_, fun th i hth ↦ ?_⟩
  · change t.receiver? l i ≠ none at hi
    dsimp only
    rw [hstage]
    rw [hreceiver] at hi
    split_ifs at hi with hir
    · exact absurd rfl hi
    · rcases hc.owned i hi with hown | ⟨th, hth⟩
      · exact Or.inl hown
      · refine Or.inr ⟨th, ?_⟩
        rw [phase_cons_of_ne (hothers th i hth hir)]
        exact hth
  · dsimp only at hi
    rw [hstage] at hi
    exact hc.newest_eq i hi
  · dsimp only at hi
    rw [hstage] at hi
    exact absurd ⟨me, r, hme⟩ (hc.honest i hi hslipped).1
  · dsimp only
    rw [hstage]
    exact Or.inl rfl
  · dsimp only
    rw [hstage]
    exact Or.inl rfl
  · dsimp only
    rw [hstage]
    exact hc.retiring th i (phase_of_cons rfl hth (by simp)).2

/-! ### The halves of a start -/

/-- A start takes the loop of the listener over, in order to replace it. -/
theorem retire (hc : Tended l s h log) (hme : phase me log = .idle)
    (hhead : (h.waiting (.listener l)).head? = some me) {r : Nat}
    (hloop : (h.tiers.listener l).loop = some r) :
    Tended l s { h with tiers := (h.tiers.takeLoop l).2.cancelLoop r }
      ((me, .retires r) :: log) := by
  have hmade : r ∈ h.tiers.loops := hc.wired.anchored l r hloop
  refine hc.taken hme hloop (hc.wired.takeLoop.cancelLoop hmade) ?_ (receiver?_cancelLoop hmade)
    (Or.inr ⟨rfl, hhead⟩)
  change ((h.tiers.takeLoop l).2.listener l).loop = none
  rw [listener_takeLoop]

end Tended

/-- What a start finds that goes on to subscribe: the listener has no loop, and only stops of others
wait for one. -/
structure Vacant (l s me : Nat) (t : Tiers) (log : Log Mark) : Prop where
  wired : Wired l s t
  loop_eq : (t.listener l).loop = none
  not_draining : ∀ r, phase me log ≠ .draining r
  not_retiring : ∀ th r, phase th log = .retiring r → th = me
  owned : ∀ r, t.receiver? l r ≠ none → ∃ th, phase th log = .draining r

/-- Where the listener had no loop. -/
theorem Tended.vacant {l s me : Nat} {h : Heap} {log : Log Mark} (hc : Tended l s h log)
    (hme : phase me log = .idle) (hhead : (h.waiting (.listener l)).head? = some me)
    (hloop : (h.tiers.listener l).loop = none) :
    Vacant l s me (h.tiers.takeLoop l).2 log := by
  have hretiring : ∀ th r, phase th log = .retiring r → th = me :=
    fun _ _ ↦ hc.eq_of_retiring hhead
  refine ⟨hc.wired.takeLoop, ?_, fun r hr ↦ ?_, hretiring, fun r hr ↦ ?_⟩
  · rw [listener_takeLoop]
  · rw [hme] at hr
    cases hr
  · rcases hc.owned r hr with hown | ⟨th, hth | hth⟩
    · rw [hloop] at hown
      cases hown
    · exact ⟨th, hth⟩
    · rw [hretiring th r hth, hme] at hth
      cases hth

/-- Where the loop before has ended. -/
theorem Tended.vacant_of_ended {l s me : Nat} {h : Heap} {log : Log Mark} (hc : Tended l s h log)
    {r : Nat} (hme : phase me log = .retiring r) (hended : (h.tiers.loop r).ended = true) :
    Vacant l s me h.tiers log := by
  obtain ⟨hhead, hloop⟩ := hc.retiring me r hme
  have hretiring : ∀ th r, phase th log = .retiring r → th = me :=
    fun _ _ ↦ hc.eq_of_retiring hhead
  refine ⟨hc.wired, hloop, fun r hr ↦ ?_, hretiring, fun i hi ↦ ?_⟩
  · rw [hme] at hr
    cases hr
  · rcases hc.owned i hi with hown | ⟨th, hth | hth⟩
    · rw [hloop] at hown
      cases hown
    · exact ⟨th, hth⟩
    · rw [hretiring th i hth, hme] at hth
      rw [← Phase.retiring.inj hth] at hi
      exact absurd (receiver?_of_ended hended) hi

namespace Vacant

variable {l s me : Nat} {t t' : Tiers} {log : Log Mark}

theorem setStage (hv : Vacant l s me t log) (state : ListenerState) :
    Vacant l s me (t.setStage l state) log where
  wired := hv.wired.setStage state
  loop_eq := by
    rw [listener_setStage]
    exact hv.loop_eq
  not_draining := hv.not_draining
  not_retiring := hv.not_retiring
  owned := hv.owned

theorem aside (hv : Vacant l s me t log) (ha : Aside l s t t') : Vacant l s me t' log where
  wired := hv.wired.aside ha
  loop_eq := ha.listener.loop.trans hv.loop_eq
  not_draining := hv.not_draining
  not_retiring := hv.not_retiring
  owned r hr := by
    rw [ha.receiver] at hr
    exact hv.owned r hr

/-- Whoever waits for a loop is another thread than the one that starts. -/
theorem phase_cons (hv : Vacant l s me t log) {th r : Nat} (hth : phase th log = .draining r)
    (e : Mark) : phase th ((me, e) :: log) = .draining r := by
  refine (phase_cons_of_ne (fun heq ↦ ?_) e log).trans hth
  rw [heq] at hth
  exact hv.not_draining r hth

/-- The subscription failed. -/
theorem failed (hv : Vacant l s me t log) {h : Heap}
    (htiers : h.tiers = t.setStage l .stopped) : Tended l s h ((me, .ended) :: log) := by
  obtain ⟨hwired, hloop, -, -, howned⟩ := hv.setStage .stopped
  rw [← htiers] at hwired hloop howned
  refine ⟨hwired, fun i hi ↦ ?_, fun i hi ↦ ?_, fun i hi _ ↦ ?_, fun i hi _ ↦ ?_, fun _ ↦ ?_,
    fun th i hth ↦ ?_⟩
  · obtain ⟨th, hth⟩ := howned i hi
    exact Or.inr ⟨th, Or.inl (hv.phase_cons hth _)⟩
  · rw [hloop] at hi
    cases hi
  · rw [hloop] at hi
    cases hi
  · rw [hloop] at hi
    cases hi
  · rw [htiers, listener_setStage]
    exact Or.inl rfl
  · obtain ⟨hne, hth⟩ := phase_of_cons rfl hth (by simp)
    exact absurd (hv.not_retiring th i hth) hne

/-- The new loop is made. -/
theorem started (hv : Vacant l s me t log) {h : Heap} {i : Nat}
    (hi : i < (t.store s).nextSubscriber)
    (hchannel : ∀ u ∈ (t.store s).subscribers, u.id = i → u.channel = (t.listener l).channel)
    (htiers : h.tiers = t.startLoop l i) : Tended l s h ((me, .started t.next) :: log) := by
  have hlistener : h.tiers.listener l =
      { t.listener l with state := .running, loop := some t.next } := by
    rw [htiers]
    exact (listener_setListener _ l l _).trans (if_pos rfl)
  have hreceiver : ∀ r, h.tiers.receiver? l r =
      if r = t.next then some (.store s, i) else t.receiver? l r := by
    intro r
    rw [htiers]
    refine (receiver?_setLoop { t with next := t.next + 1 } l t.next r _).trans ?_
    split_ifs with hr
    · simp [Loop.receiver?, hv.wired.source]
    · rfl
  have hanchored : h.tiers.Anchored := by
    intro j r hr
    rw [htiers] at hr ⊢
    refine Std.ExtTreeMap.mem_insert.mpr ?_
    change ((Tiers.setListener _ l _).listener j).loop = some r at hr
    rw [listener_setListener] at hr
    split_ifs at hr with hj
    · exact Or.inl (by simp [Option.some.inj hr])
    · exact Or.inr (hv.wired.anchored j r hr)
  have hdraining : Draining ((me, .started t.next) :: log) ↔ Draining log := by
    constructor
    · rintro ⟨th, r, hth⟩
      exact ⟨th, r, (phase_of_cons rfl hth (by simp)).2⟩
    · rintro ⟨th, r, hth⟩
      exact ⟨th, r, hv.phase_cons hth _⟩
  refine ⟨⟨?_, hanchored, ?_, fun r a ha ↦ ?_⟩, fun r hr ↦ ?_, fun r hr ↦ ?_,
    fun r hr hslipped ↦ ?_, fun r hr hslipped ↦ ?_, fun hnone ↦ ?_, fun th r hth ↦ ?_⟩
  · rw [hlistener]
    exact hv.wired.source
  · rw [htiers]
    exact hv.wired.issued
  · rw [hreceiver] at ha
    rw [hlistener, htiers]
    split_ifs at ha with hr
    · obtain rfl := Option.some.inj ha
      refine ⟨?_, i, rfl, hi, hchannel⟩
      rw [hr]
      exact Nat.lt_succ_self t.next
    · obtain ⟨hlt, hrest⟩ := hv.wired.receives r a ha
      exact ⟨Nat.lt_succ_of_lt hlt, hrest⟩
  · rw [hreceiver] at hr
    rw [hlistener]
    split_ifs at hr with hnew
    · rw [hnew]
      exact Or.inl rfl
    · obtain ⟨th, hth⟩ := hv.owned r hr
      exact Or.inr ⟨th, Or.inl (hv.phase_cons hth _)⟩
  · rw [hlistener] at hr
    exact hr
  · rw [hlistener] at hr
    obtain rfl := Option.some.inj hr
    refine ⟨fun hd ↦ hslipped (hdraining.mp hd), fun _ ↦ ?_, fun hnone ↦ ?_⟩
    · rw [hlistener]
    · rw [hreceiver, if_pos rfl] at hnone
      cases hnone
  · rw [hlistener]
    exact Or.inr ⟨rfl, hdraining.mpr hslipped⟩
  · rw [hlistener] at hnone
    cases hnone
  · obtain ⟨hne, hth⟩ := phase_of_cons rfl hth (by simp)
    exact absurd (hv.not_retiring th r hth) hne

end Vacant

end Listener

end TwoTier
