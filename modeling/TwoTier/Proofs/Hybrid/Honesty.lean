import TwoTier.Proofs.Hybrid.Listening

/-!
# What a hybrid tier says of its listener

Any number of tasks start and stop the listener of a hybrid tier, close the tier, ask for the stage
of the listener and for measurements, publish, disconnect subscribers and take stores offline, and
do what they like beside it (`Invalidator.Uses`). When all of them rest, the tier says that its
listener runs exactly where one of its receive loops is attached to the channel that was configured,
and else that it has stopped, and none is attached to any. At no time do two of its loops heed
notices, and one that a stop has told to end hears of nothing any more (`Invalidator.truthful`).

A listener by itself does not always speak the truth: a start may slip into a stop that still waits
(`Listener.Slipped`). Those who use the listener of a hybrid tier hold its place meanwhile, so that
this does not happen.
-/

set_option autoImplicit false
set_option relaxedAutoImplicit false

namespace TwoTier

namespace Invalidator

open Tiers Listener

/-- The calls that use the listener of a hybrid tier over a store, and do other things beside it
only. -/
inductive Uses (front : Front) (x : StoreHandle) : ∀ {α : Type}, Marked Mark α → Prop
  | done {α : Type} (a : α) : Uses front x (.done a)
  | crash {α : Type} : Uses front x (.crash : Marked Mark α)
  | listen {α : Type} (s : Nat) {k : Answer Unit → Marked Mark α}
      (hk : ∀ a, Uses front x (k a)) : Uses front x (listen (Hybrid.layered front x) (.store s) k)
  | cease {α : Type} {k : Unit → Marked Mark α} (hk : ∀ a, Uses front x (k a)) :
      Uses front x (cease (Hybrid.layered front x) k)
  | finish {α : Type} {k : Answer Unit → Marked Mark α} (hk : ∀ a, Uses front x (k a)) :
      Uses front x (finish (Hybrid.layered front x) k)
  | askState {α : Type} {k : ListenerState → Marked Mark α} (hk : ∀ a, Uses front x (k a)) :
      Uses front x (askState (Hybrid.layered front x) k)
  | measure {α : Type} {k : Snapshot → Marked Mark α} (hk : ∀ a, Uses front x (k a)) :
      Uses front x (measure (Hybrid.layered front x) k)
  | look {α β : Type} {f : Heap → β} {k : β → Marked Mark α} (hk : ∀ b, Uses front x (k b)) :
      Uses front x (.act (Call.look f) k)
  | elsewhere {α β : Type} {f : Heap → β × Tiers} {k : β → Marked Mark α}
      (hbeside : ∀ h, Beside h.tiers (f h).2) (hk : ∀ b, Uses front x (k b)) :
      Uses front x (.act (Call.atomically f) k)
  | onStore {α β : Type} {i : Nat} {op : Nat → Store → Outcome β × Store}
      {k : Answer β → Marked Mark α} (hfollows : ∀ now y, Store.Follows y (op now y).2)
      (hk : ∀ a, Uses front x (k a)) : Uses front x (.act (Call.onStore i op) k)
  | pause {α : Type} {k : Marked Mark α} (hk : Uses front x k) : Uses front x (.pause k)
  | sleep {α : Type} {wake : Option Nat} {k : Marked Mark α} (hk : Uses front x k) :
      Uses front x (.sleep wake k)
  | join {α : Type} {g : Nat} {key : String} {fill : Marked Mark (Answer String)}
      {k : Answer String → Marked Mark α} (hfill : Uses front x fill)
      (hk : ∀ a, Uses front x (k a)) : Uses front x (.join g key fill k)

namespace Uses

variable {front : Front} {x : StoreHandle} {α : Type}

theorem publish {i : Nat} {channel payload : String} {k : Answer Unit → Marked Mark α}
    (hk : ∀ a, Uses front x (k a)) :
    Uses front x (.act (Call.onStore i fun _ ↦ Store.publish channel payload) k) :=
  .onStore (fun _ ↦ Store.follows_publish channel payload) hk

theorem opens {m : Marked Mark α} (hm : Uses front x m) : Play.Opens m := by
  cases hm <;> trivial

/-- Whoever uses the listener keeps what holds of it. -/
theorem safe {m : Marked Mark α} (hm : Uses front x m) (l me : Nat) :
    GoesOn (Hybrid.layered front x) l me m := by
  -- a thread that is idle is idle whatever others do meanwhile
  have hlater : ∀ {me : Nat} {log log' : Log Mark}, phase me log = .idle →
      Marked.marksOf me log' = Marked.marksOf me log → phase me log' = .idle :=
    fun hme hmarks ↦ (phase_congr hmarks).trans hme
  induction hm generalizing me with
  | done a => exact fun h log hc hme ↦ hc.leaveAll hme
  | crash => exact fun h log hc hme ↦ hc.leaveAll hme
  | listen s _ ih => exact safe_listen (fun a ↦ ih a me) s
  | cease _ ih => exact safe_cease fun a ↦ ih a me
  | finish _ ih => exact safe_finish fun a ↦ ih a me
  | askState _ ih => exact safe_show fun a ↦ ih a me
  | measure _ ih =>
    exact .look fun near ↦ .look fun remote ↦ .look fun guard ↦ safe_show fun a ↦ ih a me
  | look _ ih => exact .look fun b ↦ ih b me
  | elsewhere hbeside _ ih => exact .elsewhere hbeside fun b ↦ ih b me
  | @onStore _ _ i op _ hfollows _ ih =>
    intro h log hc hme
    have hafter : Watched front l
        { h with tiers := h.tiers.setStore i (op h.now (h.tiers.store i)).2 } log :=
      hc.beside (beside_setStore h.tiers (hfollows h.now _))
    exact Marked.Safe.of_atOnce
      (Call.AtOnce.onStore_of_heap (Q := fun h' ↦ Watched front l h' log) hafter)
      (fun a h' hc' ↦ ih a me h' log hc' hme) fun h' hc' ↦ hc'.leaveAll hme
  | pause _ ih =>
    exact fun h log hc hme ↦ ⟨hc, fun h' log' hc' hmarks ↦ ih me h' log' hc' (hlater hme hmarks)⟩
  | sleep _ ih =>
    exact fun h log hc hme ↦ ⟨hc, fun h' log' hc' hmarks ↦ ih me h' log' hc' (hlater hme hmarks)⟩
  | join _ _ ihfill ih =>
    refine fun h log hc hme ↦ ⟨hc, fun i h' log' hc' hmarks ↦ ?_, fun o h' log' hc' hmarks ↦
      ih o me h' log' hc' (hlater hme hmarks)⟩
    exact ihfill i h' log' hc' (by rw [phase, hmarks]; rfl)

end Uses

/-- Tasks use the listener of a hybrid tier that always has a name; none is cancelled. -/
def usage (front : Front) (x : StoreHandle) (ρ : Type) : Play.Rules Mark ρ :=
  ⟨Uses front x, [.slot front.id], False⟩

theorem keep_usage {front : Front} {x : StoreHandle} {l : Nat} (ρ : Type) :
    (usage front x ρ).Keep (Watched front l) where
  kept :=
    { thread gs n hc := hc.congr rfl rfl
      clock _ hc := hc.congr rfl rfl
      loop n hr hready hc := hc.stepLoop n hr hready
      release hnamed hc := hc.release (hnamed (List.mem_singleton.mpr rfl)) }
  aborts hfalse := hfalse.elim
  opens hm := hm.opens
  safe hm i h log hc hmarks := hm.safe l i h log hc (by rw [phase, hmarks]; rfl)

/-! ### What the tier says -/

variable {c : Hybrid} {l : Nat}

/-- A receive loop that the listener of a hybrid tier has made, and that has not ended. -/
def LoopOf (t : Tiers) (id r : Nat) (y : Loop) : Prop :=
  ∃ l, t.slots[id]? = some l ∧ t.loops[r]? = some y ∧ y.listener = l ∧ y.ended = false

/-- A receive loop of a hybrid tier is attached to a channel of a store. -/
def Attached (t : Tiers) (id : Nat) (channel : String) (r : Nat) : Prop :=
  ∃ y, LoopOf t id r y ∧ ∃ s, y.source = .store s ∧ ∃ u ∈ (t.store s).subscribers,
    u.id = y.subscription ∧ u.attached = true ∧ u.channel = channel

/-- A receive loop of a hybrid tier goes on to apply notices: it has not been told to end. -/
def Heeds (t : Tiers) (id r : Nat) : Prop := ∃ y, LoopOf t id r y ∧ y.cancelled = false

/-- A hybrid tier that has not been used, in a world without listeners that run. -/
structure Unused (c : Front) (t : Tiers) : Prop where
  slot_eq : t.slots[c.id]? = none
  loop_eq : ∀ i, (t.listener i).loop = none
  loops_eq : ∀ r : Nat, t.loops[r]? = none
  issued : ∀ s, (t.store s).Issued

theorem LoopOf.receives {t : Tiers} {r : Nat} {y : Loop} (hslot : t.slots[c.id]? = some l)
    (hy : LoopOf t c.id r y) : t.receiver? l r ≠ none := by
  obtain ⟨i, hi, hr, hl, hended⟩ := hy
  obtain rfl := Option.some.inj (hslot.symm.trans hi)
  rw [receiver?, hr, Option.bind_some, Loop.receiver?, if_pos ⟨hl, hended⟩]
  exact Option.some_ne_none _

/-- A call that is given the listener, and ends at once, where nobody else uses the listener. -/
theorem halt_withListener {α : Type} {call : Option Nat → Call α} {me : Nat} {h h' : Heap} {a : α}
    (hfirst : ((h.enqueue (.slot c.id) me).waiting (.slot c.id)).head? = some me)
    (hcall : (call (h.enqueue (.slot c.id) me).tiers.slots[c.id]?).halt me
      (h.enqueue (.slot c.id) me) = (h', .done a)) :
    (c.withListener call).halt me h = (h'.leave (.slot c.id) me, .done a) := by
  change Call.halt me (.acquire (.slot c.id) _) h = _
  simp only [Call.halt]
  rw [if_pos hfirst]
  exact Call.halt_bind_of_done hcall _

/-- Whoever asks for the stage of the listener while nobody uses it is answered at once. -/
theorem invalidatorState_atOnce {me : Nat} {h : Heap} {P : ListenerState → Heap → Prop}
    (hfree : h.waiting (.slot c.id) = [])
    (hP : ∀ h', h'.tiers = h.tiers → P (h.tiers.slots[c.id]?.elim .stopped
      fun l ↦ (h.tiers.listener l).state) h') :
    c.invalidatorState.AtOnce me h P fun _ ↦ False := by
  have hfirst : ((h.enqueue (.slot c.id) me).waiting (.slot c.id)).head? = some me := by
    rw [Heap.waiting_enqueue_of_nil hfree]
    rfl
  have htiers : (h.enqueue (.slot c.id) me).tiers = h.tiers := Heap.tiers_enqueue h _ me
  have hhalt : c.invalidatorState.halt me h = ((h.enqueue (.slot c.id) me).leave (.slot c.id) me,
      .done (h.tiers.slots[c.id]?.elim .stopped fun l ↦ (h.tiers.listener l).state)) := by
    rw [← htiers]
    refine halt_withListener hfirst ?_
    cases (h.enqueue (.slot c.id) me).tiers.slots[c.id]? <;> rfl
  exact Or.inl ⟨_, _, hhalt, hP _ htiers⟩

/-- What a hybrid tier says of its listener when nobody uses it. -/
theorem Attended.said {ρ : Type} {s : Nat} {w : World ρ} {log : Log Mark}
    (hc : Attended c.toFront l s w.heap log) (hidle : w.candidates = [])
    (hfree : w.heap.waiting (.slot c.id) = []) :
    let t := w.heap.tiers
    (t.listener l).state = .running ∧ (∃! r, Attached t c.id c.settings.channel r) ∨
      (t.listener l).state = .stopped ∧ ∀ channel r, ¬ Attached t c.id channel r := by
  intro t
  have hrest : Resting log := by
    intro x _
    by_contra hx
    have hhead := hc.alone x.1 hx
    rw [hfree] at hhead
    cases hhead
  by_cases hsome : ∃ r, t.receiver? l r ≠ none
  · obtain ⟨r, hr⟩ := hsome
    have hloop := hc.tended.loop_eq_of_rest hrest hr
    refine Or.inl ⟨(hc.tended.state_of_loop hrest hr).2 hc.kempt.honest, r, ?_, fun i hi ↦ ?_⟩
    · obtain ⟨y, hy, hl, hended, -, hsource, u, hu, hid, hattached, hchannel⟩ :=
        (serves_iff hc.tended.wired hidle r).mpr hr
      exact ⟨y, ⟨l, hc.kempt.slot_eq, hy, hl, hended⟩, s, hsource, u, hu, hid, hattached,
        hchannel.trans hc.kempt.channel_eq⟩
    · obtain ⟨y, hy, -⟩ := hi
      have hown := hc.tended.loop_eq_of_rest hrest (hy.receives hc.kempt.slot_eq)
      rw [hloop] at hown
      exact (Option.some.inj hown).symm
  · have hnone : ∀ r, t.receiver? l r = none := by
      intro r
      by_contra hr
      exact hsome ⟨r, hr⟩
    refine Or.inr ⟨hc.tended.state_of_no_loop hrest hnone, fun channel r hr ↦ ?_⟩
    obtain ⟨y, hy, -⟩ := hr
    exact hsome ⟨r, hy.receives hc.kempt.slot_eq⟩

/-- Of the loops of a hybrid tier, only the one that its listener is responsible for heeds notices.
-/
theorem Attended.loop_of_heeds {s : Nat} {h : Heap} {log : Log Mark}
    (hc : Attended c.toFront l s h log) {r : Nat} (hr : Heeds h.tiers c.id r) :
    (h.tiers.listener l).loop = some r := by
  obtain ⟨y, hy, hcancelled⟩ := hr
  rcases hc.tended.owned r (hy.receives hc.kempt.slot_eq) with hown | ⟨th, hth⟩
  · exact hown
  · obtain ⟨-, -, hloop, -⟩ := hy
    have hdismissed := (hc.kempt.recorded.dismissed_of_phase hth).2
    rw [loop_of_getElem? hloop, hcancelled] at hdismissed
    cases hdismissed

/-- Through any uses of a hybrid tier by any tasks: when nothing can happen and nobody uses its
listener, what the tier says of it is the truth; at no time do two of its loops heed notices; and a
loop that a stop has told to end changes nothing any more. The starts and stops, the ends, and the
questions of the tasks are the operations of the tier, marks aside. -/
theorem truthful {front : Front} {x : StoreHandle} {ρ : Type} {now : Nat} {tiers : Tiers}
    {p : Play Mark ρ} (hnew : Unused front tiers)
    (hp : Play.Reachable (usage front x ρ) (Play.opening now tiers [.slot front.id]) p) :
    let c := Hybrid.layered front x
    let t := p.world.heap.tiers
    Links c ∧
      (p.world.candidates = [] → p.world.heap.waiting (.slot front.id) = [] →
        ∀ me, c.invalidatorState.AtOnce me p.world.heap (fun said h' ↦ h'.tiers = t ∧
          (said = .running ∧ (∃! r, Attached t front.id front.settings.channel r) ∨
            said = .stopped ∧ ∀ channel r, ¬ Attached t front.id channel r)) fun _ ↦ False) ∧
      (∀ r r', Heeds t front.id r → Heeds t front.id r' → r = r') ∧
      ∀ th r, (th, .drains r) ∈ p.log → (t.loop r).cancelled = true ∧ Unheard t (t.stepLoop r) := by
  intro c t
  refine ⟨links c, ?_⟩
  have hbare : Bare front tiers.next { Heap.initial with now := now, tiers := tiers } :=
    ⟨hnew.slot_eq, rfl, hnew.loop_eq, hnew.loops_eq, hnew.issued, rfl⟩
  have hc : Watched front tiers.next p.world.heap p.log :=
    (hp.sound (keep_usage ρ) (Play.sound_opening (Or.inl ⟨hbare, rfl⟩))).inv
  rcases hc with ⟨hb, hlog⟩ | ⟨s, hc⟩
  · have hnone : ∀ r y, ¬ LoopOf t front.id r y := by
      rintro r y ⟨i, hi, -⟩
      rw [hb.slot_eq] at hi
      cases hi
    refine ⟨fun _ hfree me ↦ invalidatorState_atOnce hfree fun h' htiers ↦ ⟨htiers, Or.inr ?_⟩,
      fun r r' hr ↦ ?_, fun th r hr ↦ ?_⟩
    · change (t.slots[front.id]?).elim _ _ = _ ∧ _
      rw [hb.slot_eq]
      exact ⟨rfl, fun channel r ⟨y, hy, _⟩ ↦ hnone r y hy⟩
    · obtain ⟨y, hy, -⟩ := hr
      exact absurd hy (hnone r y)
    · rw [hlog] at hr
      cases hr
  · have hc : Attended c.toFront tiers.next s p.world.heap p.log := hc
    refine ⟨fun hidle hfree me ↦ invalidatorState_atOnce hfree fun h' htiers ↦ ⟨htiers, ?_⟩,
      fun r r' hr hr' ↦ ?_, fun th r hr ↦ ?_⟩
    · rw [hc.kempt.slot_eq]
      exact hc.said hidle hfree
    · have hown := hc.loop_of_heeds hr
      rw [hc.loop_of_heeds hr'] at hown
      exact (Option.some.inj hown).symm
    · have hdismissed : t.Dismissed r := hc.kempt.recorded _ hr
      exact ⟨hdismissed.2, unheard_stepLoop (Or.inr hdismissed.2)⟩

/-- A start comes while a stop still waits for the loop before. It waits in its turn, and so the
tier speaks the truth in the end: the new loop runs, and has applied a notice. -/
theorem truthful_of_restarted :
    let front : Front := ⟨0, ⟨0, 0⟩, 0, ⟨1, "c", 1000⟩⟩
    let x : StoreHandle := ⟨0, 0⟩
    let c := Hybrid.layered front x
    let first : Play Mark Unit := .opening 0 Tiers.empty [.slot 0]
    let start : Marked Mark Unit := listen c (.store 0) fun _ ↦ .done ()
    let stop : Marked Mark Unit := cease c fun _ ↦ .done ()
    let restart : Marked Mark Unit := listen c (.store 0) fun _ ↦
      .act (Call.onStore 0 fun _ ↦ Store.publish "c" "k") fun _ ↦ .done ()
    let started := (first.apply (.spawn [] start)).apply (.run (.task 0))
    let called := (started.apply (.spawn [] stop)).apply (.spawn [] restart)
    let waits := (called.apply (.run (.task 1))).apply (.run (.task 2))
    let stopped := (waits.apply (.run (.loop 1))).apply (.run (.task 1))
    let last := (stopped.apply (.run (.task 2))).apply (.run (.loop 2))
    let t := last.world.heap.tiers
    Play.Reachable (usage front x Unit) first last ∧ last.world.candidates = [] ∧
      last.world.heap.waiting (.slot 0) = [] ∧ (1, .drains 1) ∈ last.log ∧
      (t.listener 0).state = .running ∧ (t.listener 0).applied = 1 ∧
      c.invalidatorState.AtOnce 3 last.world.heap (fun said h' ↦ h'.tiers = t ∧
        (said = .running ∧ (∃! r, Attached t 0 "c" r) ∨
          said = .stopped ∧ ∀ channel r, ¬ Attached t 0 channel r)) fun _ ↦ False := by
  intro front x c first start stop restart started called waits stopped last t
  have hstart : Uses front x start := .listen 0 fun _ ↦ .done ()
  have hstop : Uses front x stop := .cease fun _ ↦ .done ()
  have hrestart : Uses front x restart := .listen 0 fun _ ↦ .publish fun _ ↦ .done ()
  have hstarted : Play.Reachable (usage front x Unit) first started :=
    .move _ ⟨0, by decide⟩ (.move _ hstart .start)
  have hcalled : Play.Reachable (usage front x Unit) first called :=
    .move _ hrestart (.move _ hstop hstarted)
  have hwaits : Play.Reachable (usage front x Unit) first waits :=
    .move _ ⟨3, by decide⟩ (.move _ ⟨2, by decide⟩ hcalled)
  have hstopped : Play.Reachable (usage front x Unit) first stopped :=
    .move _ ⟨4, by decide⟩ (.move _ ⟨0, by decide⟩ hwaits)
  have hlast : Play.Reachable (usage front x Unit) first last :=
    .move _ ⟨0, by decide⟩ (.move _ ⟨5, by decide⟩ hstopped)
  have hidle : last.world.candidates = [] := by decide
  have hfree : last.world.heap.waiting (.slot 0) = [] := by decide
  have hnew : Unused front Tiers.empty :=
    ⟨rfl, fun _ ↦ rfl, fun _ ↦ rfl, fun _ u hu ↦ absurd hu List.not_mem_nil⟩
  exact ⟨hlast, hidle, hfree, by decide, by decide, by decide,
    (truthful hnew hlast).2.1 hidle hfree 3⟩

end Invalidator

end TwoTier
