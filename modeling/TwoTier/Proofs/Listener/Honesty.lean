import TwoTier.Proofs.Listener.Tended

/-!
# What a listener says of itself

Any number of tasks start and stop a listener of a store, publish, disconnect its subscribers, and
do what they like beside it (`Listener.Handles`). When all of them rest, the listener says that it
runs exactly where one of its receive loops serves it, unless the last start had slipped into a stop
that still waited and its loop still runs: then the stop has had the last word, and the listener
says that it has stopped (`Listener.truthful_iff`).
-/

set_option autoImplicit false
set_option relaxedAutoImplicit false

namespace TwoTier

namespace Listener

open Tiers

/-- The calls that start and stop a listener and do other things beside it only. -/
inductive Handles (l s : Nat) : ∀ {α : Type}, Marked Mark α → Prop
  | done {α : Type} (a : α) : Handles l s (.done a)
  | crash {α : Type} : Handles l s (.crash : Marked Mark α)
  | start {α : Type} {k : Answer Unit → Marked Mark α} (hk : ∀ a, Handles l s (k a)) :
      Handles l s (notedStart tending l k)
  | stop {α : Type} {k : Unit → Marked Mark α} (hk : ∀ a, Handles l s (k a)) :
      Handles l s (notedStop tending l k)
  | look {α β : Type} {f : Heap → β} {k : β → Marked Mark α} (hk : ∀ b, Handles l s (k b)) :
      Handles l s (.act (Call.look f) k)
  | elsewhere {α β : Type} {f : Heap → β × Tiers} {k : β → Marked Mark α}
      (haside : ∀ h, Aside l s h.tiers (f h).2) (hk : ∀ b, Handles l s (k b)) :
      Handles l s (.act (Call.atomically f) k)
  | onStore {α β : Type} {i : Nat} {op : Nat → Store → Outcome β × Store}
      {k : Answer β → Marked Mark α} (hfollows : ∀ now x, Store.Follows x (op now x).2)
      (hk : ∀ a, Handles l s (k a)) : Handles l s (.act (Call.onStore i op) k)
  | pause {α : Type} {k : Marked Mark α} (hk : Handles l s k) : Handles l s (.pause k)
  | sleep {α : Type} {wake : Option Nat} {k : Marked Mark α} (hk : Handles l s k) :
      Handles l s (.sleep wake k)
  | join {α : Type} {g : Nat} {key : String} {fill : Marked Mark (Answer String)}
      {k : Answer String → Marked Mark α} (hfill : Handles l s fill)
      (hk : ∀ a, Handles l s (k a)) : Handles l s (.join g key fill k)
  | acquire {α : Type} {m : Lock} {k : Marked Mark α} (hk : Handles l s k) :
      Handles l s (.acquire m k)
  | release {α : Type} {m : Lock} {k : Marked Mark α} (hk : Handles l s k) :
      Handles l s (.release m k)
  | loopEnd {α : Type} {r : Nat} {deadline : Option Nat} {k : Bool → Marked Mark α}
      (hk : ∀ b, Handles l s (k b)) : Handles l s (.loopEnd r deadline k)

variable {l s : Nat} {α β : Type}

theorem Handles.publish {i : Nat} {channel payload : String} {k : Answer Unit → Marked Mark α}
    (hk : ∀ a, Handles l s (k a)) :
    Handles l s (.act (Call.onStore i fun _ ↦ Store.publish channel payload) k) :=
  .onStore (fun _ ↦ Store.follows_publish channel payload) hk

theorem Handles.opens {m : Marked Mark α} (hm : Handles l s m) : Play.Opens m := by
  cases hm <;> trivial

/-! ### The calls keep the invariant -/

section Safe

variable {me : Nat} {h : Heap} {log : Log Mark}

/-- A start subscribes, or fails to. -/
theorem Vacant.subscribe (hv : Vacant l s me h.tiers log) :
    (subscribe (h.tiers.listener l).source (h.tiers.listener l).channel).AtOnce me h
      (fun a h' ↦ Vacant l s me h'.tiers log ∧
        ∀ i, a = .ok i → i < (h'.tiers.store s).nextSubscriber ∧
          ∀ u ∈ (h'.tiers.store s).subscribers, u.id = i →
            u.channel = (h'.tiers.listener l).channel)
      fun _ ↦ False := by
  have hv' := fun channel ↦
    hv.aside (aside_setStore h.tiers (Store.follows_subscribe channel (h.tiers.store s)))
  rw [hv.wired.source]
  change (Call.onStore s fun _ ↦ Store.subscribe _).AtOnce me h _ _
  refine Call.AtOnce.onStore (fun i hi ↦ ⟨hv' _, fun j hj ↦ ?_⟩) (fun f _ ↦ ⟨hv' _, fun j hj ↦ ?_⟩)
    fun ho ↦ ?_
  · obtain rfl := Except.ok.inj hj
    have hsubscribed := Store.subscribe_eq_ok hv.wired.issued hi
    simp only [Tiers.store_setStore, if_true]
    exact hsubscribed
  · cases hj
  · exact Store.subscribe_ne_overflow _ _ ho

/-- The second half of a start. -/
theorem safe_notedSubscribe {k : Answer Unit → Marked Mark α}
    (hk : ∀ a h log, Tended l s h log → phase me log = .idle →
      Marked.Safe (Tended l s) me (k a) h log)
    (hv : Vacant l s me h.tiers log) :
    Marked.Safe (Tended l s) me (notedSubscribe tending l k) h log := by
  refine Or.inl ⟨_, (), rfl, Or.inl ⟨_, _, rfl, ?_⟩⟩
  have hstarting : Vacant l s me { h with tiers := h.tiers.setStage l .starting }.tiers log :=
    hv.setStage .starting
  refine Marked.Safe.of_atOnce hstarting.subscribe (fun a h' ha ↦ ?_) fun _ hfail ↦ hfail.elim
  obtain ⟨hv', hsubscribed⟩ := ha
  cases a with
  | ok i =>
    obtain ⟨hi, hchannel⟩ := hsubscribed i rfl
    refine Or.inl ⟨_, (), rfl, ?_⟩
    have hphase := phase_cons_self me (.started h'.tiers.next) log
    exact hk _ _ _ ((hv'.started hi hchannel rfl).leave hphase _) hphase
  | error f =>
    refine Or.inl ⟨_, (), rfl, ?_⟩
    have hphase := phase_cons_self me .ended log
    exact hk _ _ _ ((hv'.failed rfl).leave hphase _) hphase

theorem safe_notedStart {k : Answer Unit → Marked Mark α}
    (hk : ∀ a h log, Tended l s h log → phase me log = .idle →
      Marked.Safe (Tended l s) me (k a) h log)
    (hc : Tended l s h log) (hme : phase me log = .idle) :
    Marked.Safe (Tended l s) me (notedStart tending l k) h log := by
  refine ⟨hc, fun h' log' hc' hmarks ↦ ⟨hc'.enqueue _ me, fun hhead ↦ ?_⟩⟩
  have hc₁ := hc'.enqueue (.listener l) me
  have hme₁ := (phase_congr hmarks).trans hme
  generalize h'.enqueue (.listener l) me = h₁ at hhead hc₁
  refine Or.inl ⟨_, _, rfl, ?_⟩
  dsimp only
  cases isServed h₁ l with
  | true => exact hk _ _ _ (hc₁.leave hme₁ _) hme₁
  | false =>
    refine Or.inl ⟨_, _, rfl, ?_⟩
    dsimp only [takeLoop]
    cases hloop : (h₁.tiers.listener l).loop with
    | none => exact safe_notedSubscribe hk (hc₁.vacant hme₁ hhead hloop)
    | some r =>
      refine Or.inl ⟨_, (), rfl, hc₁.retire hme₁ hhead hloop, fun h₂ log₂ hc₂ hmarks₂ ↦ ?_⟩
      have hme₂ : phase me log₂ = .retiring r :=
        (phase_congr hmarks₂).trans (phase_cons_self me _ log')
      refine ⟨fun hended ↦ ?_, fun hdue ↦ ?_⟩
      · exact safe_notedSubscribe hk (hc₂.vacant_of_ended hme₂ hended)
      · cases hdue

theorem safe_notedStop {k : Unit → Marked Mark α}
    (hk : ∀ a h log, Tended l s h log → phase me log = .idle →
      Marked.Safe (Tended l s) me (k a) h log)
    (hc : Tended l s h log) (hme : phase me log = .idle) :
    Marked.Safe (Tended l s) me (notedStop tending l k) h log := by
  refine ⟨hc, fun h' log' hc' hmarks ↦ ⟨hc'.enqueue _ me, fun _ ↦ ?_⟩⟩
  have hc₁ := hc'.enqueue (.listener l) me
  have hme₁ := (phase_congr hmarks).trans hme
  generalize h'.enqueue (.listener l) me = h₁ at hc₁
  refine Or.inl ⟨_, _, rfl, ?_⟩
  dsimp only [takeLoop, Marked.Safe]
  cases hloop : (h₁.tiers.listener l).loop with
  | none =>
    have htaken : Aside l s h₁.tiers (h₁.tiers.takeLoop l).2 :=
      aside_setListener _ (fun _ ↦ ⟨rfl, rfl, rfl, hloop.symm⟩)
        fun r hr ↦ absurd hr.symm (Option.some_ne_none r)
    exact hk _ _ _ ((hc₁.beside htaken).leave hme₁ _) hme₁
  | some r =>
    refine Or.inl ⟨_, (), rfl, Or.inl ⟨_, _, rfl, hc₁.drain hme₁ hloop rfl,
      fun h₂ log₂ hc₂ hmarks₂ ↦ ?_⟩⟩
    have hme₂ : phase me log₂ = .draining r :=
      (phase_congr hmarks₂).trans (phase_cons_self me _ log')
    refine ⟨fun hended ↦ ?_, fun _ ↦ ?_⟩
    · refine Or.inl ⟨_, (), rfl, ?_⟩
      refine hk _ _ _ (hc₂.drained (t := h₂.tiers) hme₂ hc₂.wired rfl fun i ↦ ?_)
        (phase_cons_self me _ log₂)
      split_ifs with hi
      · rw [hi]
        exact receiver?_of_ended hended
      · rfl
    · refine Or.inl ⟨_, (), rfl, ?_⟩
      exact hk _ _ _ (hc₂.drained hme₂ (hc₂.wired.closeLoop r) (listener_closeLoop _ r l)
        (receiver?_closeLoop _ r)) (phase_cons_self me _ log₂)

/-- A call that starts and stops a listener keeps the invariant, whatever it goes on with. -/
theorem Handles.safe {m : Marked Mark α} (hm : Handles l s m) (me : Nat) (f : α → Marked Mark β)
    (hf : ∀ a h log, Tended l s h log → phase me log = .idle →
      Marked.Safe (Tended l s) me (f a) h log)
    {h : Heap} {log : Log Mark} (hc : Tended l s h log) (hme : phase me log = .idle) :
    Marked.Safe (Tended l s) me (m.bind f) h log := by
  -- a thread that is idle is idle whatever others do meanwhile
  have hlater : ∀ {me : Nat} {log log' : Log Mark}, phase me log = .idle →
      Marked.marksOf me log' = Marked.marksOf me log → phase me log' = .idle :=
    fun hme hmarks ↦ (phase_congr hmarks).trans hme
  induction hm generalizing h log me β with
  | done a => exact hf a h log hc hme
  | crash => exact hc.leaveAll hme
  | start _ ih =>
    rw [notedStart_bind]
    exact safe_notedStart (fun a h' log' hc' hme' ↦ ih a me f hf hc' hme') hc hme
  | stop _ ih =>
    rw [notedStop_bind]
    exact safe_notedStop (fun a h' log' hc' hme' ↦ ih a me f hf hc' hme') hc hme
  | look _ ih =>
    exact Marked.Safe.of_atOnce (F := fun _ ↦ False) (Call.AtOnce.look hc)
      (fun b h' hc' ↦ ih b me f hf hc' hme) fun h' hfail ↦ hfail.elim
  | elsewhere haside _ ih =>
    exact Marked.Safe.of_atOnce (P := fun _ h' ↦ Tended l s h' log) (F := fun _ ↦ False)
      (Call.AtOnce.atomically (hc.beside (haside h))) (fun b h' hc' ↦ ih b me f hf hc' hme)
      fun h' hfail ↦ hfail.elim
  | @onStore _ _ i op _ hfollows _ ih =>
    have hafter : Tended l s
        { h with tiers := h.tiers.setStore i (op h.now (h.tiers.store i)).2 } log :=
      hc.beside (aside_setStore h.tiers (hfollows h.now _))
    exact Marked.Safe.of_atOnce
      (Call.AtOnce.onStore_of_heap (Q := fun h' ↦ Tended l s h' log) hafter)
      (fun a h' hc' ↦ ih a me f hf hc' hme) fun h' hc' ↦ hc'.leaveAll hme
  | pause _ ih => exact ⟨hc, fun h' log' hc' hmarks ↦ ih me f hf hc' (hlater hme hmarks)⟩
  | sleep _ ih => exact ⟨hc, fun h' log' hc' hmarks ↦ ih me f hf hc' (hlater hme hmarks)⟩
  | join _ _ ihfill ih =>
    refine ⟨hc, fun i h' log' hc' hmarks ↦ ?_, fun o h' log' hc' hmarks ↦
      ih o me f hf hc' (hlater hme hmarks)⟩
    have hsafe := ihfill i .done (fun a h'' log'' hc'' hme'' ↦ hc''.leaveAll hme'') hc'
      (by rw [phase, hmarks]; rfl)
    rwa [Marked.bind_done] at hsafe
  | acquire _ ih =>
    refine ⟨hc, fun h' log' hc' hmarks ↦ ⟨hc'.enqueue _ me, fun _ ↦ ?_⟩⟩
    exact ih me f hf (hc'.enqueue _ me) (hlater hme hmarks)
  | release _ ih => exact ih me f hf (hc.leave hme _) hme
  | loopEnd _ ih =>
    refine ⟨hc, fun h' log' hc' hmarks ↦ ⟨fun _ ↦ ?_, fun _ ↦ ?_⟩⟩
    · exact ih true me f hf hc' (hlater hme hmarks)
    · exact ih false me f hf hc' (hlater hme hmarks)

end Safe

/-- A receive loop that takes a step keeps the invariant. -/
theorem Tended.stepLoop {h : Heap} {log : Log Mark} (hc : Tended l s h log) {r : Nat} (n : Nat)
    (hr : r ∈ h.tiers.loops) (hready : h.tiers.loopReady r = true) :
    Tended l s { h with tiers :=
      (h.tiers.stepLoop r).setLoop r { (h.tiers.stepLoop r).loop r with since := n } } log := by
  -- when the loop last began to wait is of no importance
  have hsince : ∀ t : Tiers, r ∈ t.loops →
      Aside l s t (t.setLoop r { t.loop r with since := n }) :=
    fun t ht ↦ aside_setLoop t (receiver?_of_mem ht l).symm
  rcases aside_or_endLoop (l := l) (s := s) h.tiers r with
    ⟨haside, hloops⟩ | ⟨t, haside, hloops, heq⟩
  · exact hc.beside (haside.trans (hsince _ (by rw [hloops]; exact hr)))
  · have hmade : r ∈ t.loops := by
      rw [hloops]
      exact hr
    rw [heq]
    have hend : Tended l s { h with tiers := t.endLoop r } log := by
      by_cases hl : (t.loop r).listener = l
      · refine (hc.beside haside).endLoop hl ?_
        have hended : (t.loop r).ended = false := by
          have hsame : t.loop r = h.tiers.loop r := by
            unfold Tiers.loop
            rw [hloops]
          rw [hsame]
          by_contra hended
          rw [loopReady, eq_true_of_ne_false hended] at hready
          cases hready
        change t.receiver? l r ≠ none
        rw [receiver?_of_mem hmade, Loop.receiver?, if_pos ⟨hl, hended⟩]
        exact Option.some_ne_none _
      · exact hc.beside (haside.trans (aside_endLoop hmade hl))
    exact hend.beside (hsince _ (mem_loops_endLoop hmade))

/-- Tasks start and stop a listener that always has a name; none is cancelled. -/
def handling (l s : Nat) (ρ : Type) : Play.Rules Mark ρ := ⟨Handles l s, [.listener l], False⟩

theorem keep_handling (ρ : Type) : (handling l s ρ).Keep (Tended l s) where
  kept :=
    { thread _ _ hc := hc.aside (.refl _) fun _ _ hhead ↦ hhead
      clock _ hc := hc.aside (.refl _) fun _ _ hhead ↦ hhead
      loop n hr hready hc := hc.stepLoop n hr hready
      release hnamed hc := hc.beside (aside_release hc.wired.anchored
        (hnamed (List.mem_singleton.mpr rfl))) }
  aborts hfalse := hfalse.elim
  opens hm := hm.opens
  safe hm i h log hc hmarks := by
    have hsafe := hm.safe i .done (fun a h' log' hc' hme ↦ hc'.leaveAll hme) hc
      (by rw [phase, hmarks]; rfl)
    rwa [Marked.bind_done] at hsafe

/-! ### When all tasks rest -/

/-- A receive loop serves a listener of a store: it has neither ended nor been told to end, and its
subscription is attached to the channel of the listener. -/
def Serves (t : Tiers) (l s r : Nat) : Prop :=
  ∃ y, t.loops[r]? = some y ∧ y.listener = l ∧ y.ended = false ∧ y.cancelled = false ∧
    y.source = .store s ∧ ∃ u ∈ (t.store s).subscribers, u.id = y.subscription ∧
      u.attached = true ∧ u.channel = (t.listener l).channel

/-- A listener says that it runs exactly where one loop serves it, and else that it has stopped, and
no loop does. -/
def Truthful (t : Tiers) (l s : Nat) : Prop :=
  ((t.listener l).state = .running ∧ ∃! r, Serves t l s r) ∨
    ((t.listener l).state = .stopped ∧ ∀ r, ¬ Serves t l s r)

/-- No start and no stop is in progress. -/
def Resting (log : Log Mark) : Prop := ∀ x ∈ log, phase x.1 log = .idle

instance (log : Log Mark) : Decidable (Resting log) :=
  inferInstanceAs (Decidable (∀ x ∈ log, phase x.1 log = .idle))

theorem Resting.phase_eq {log : Log Mark} (h : Resting log) (th : Nat) : phase th log = .idle := by
  cases hmarks : Marked.marksOf th log with
  | nil => rw [phase, hmarks]; rfl
  | cons x rest =>
    have hmem : x ∈ Marked.marksOf th log := by
      rw [hmarks]
      exact List.mem_cons_self
    obtain ⟨hx, hth⟩ := List.mem_filter.mp hmem
    rw [← of_decide_eq_true hth]
    exact h x hx

/-- A listener of a store, before any listener has been started. -/
structure Unstarted (l s : Nat) (t : Tiers) : Prop where
  source : (t.listener l).source = .store s
  state : (t.listener l).state = .stopped
  loop : ∀ i, (t.listener i).loop = none
  loops : ∀ r : Nat, t.loops[r]? = none
  issued : (t.store s).Issued

theorem Unstarted.tended {t : Tiers} (h : Unstarted l s t) (now : Nat) :
    Tended l s { Heap.initial with now := now, tiers := t } [] := by
  have hreceiver : ∀ r, t.receiver? l r = none := by
    intro r
    rw [receiver?, h.loops r]
    rfl
  have hloop : ∀ r, (t.listener l).loop ≠ some r := by
    intro r
    rw [h.loop l]
    exact (Option.some_ne_none r).symm
  refine ⟨⟨h.source, fun i r hr ↦ ?_, h.issued, fun r a ha ↦ ?_⟩, fun r hr ↦ ?_, fun r hr ↦ ?_,
    fun r hr ↦ ?_, fun r hr ↦ ?_, fun _ ↦ Or.inl h.state, fun th r hth ↦ ?_⟩
  · rw [h.loop i] at hr
    cases hr
  · rw [hreceiver r] at ha
    cases ha
  · exact absurd (hreceiver r) hr
  · exact absurd hr (hloop r)
  · exact absurd hr (hloop r)
  · exact absurd hr (hloop r)
  · cases hth

/-- Where nothing can happen, every receive loop of the listener waits for a notice. -/
theorem serves_iff {ρ : Type} {w : World ρ} (hwired : Wired l s w.heap.tiers)
    (hidle : w.candidates = []) (r : Nat) :
    Serves w.heap.tiers l s r ↔ w.heap.tiers.receiver? l r ≠ none := by
  generalize ht : w.heap.tiers = t at hwired
  constructor
  · rintro ⟨y, hy, hl, hended, -⟩
    rw [receiver?, hy, Option.bind_some, Loop.receiver?, if_pos ⟨hl, hended⟩]
    exact Option.some_ne_none _
  · intro hr
    obtain ⟨a, ha⟩ := Option.ne_none_iff_exists'.mp hr
    obtain ⟨-, i, rfl, -, hchannel⟩ := hwired.receives r a ha
    obtain ⟨y, hy, hreceiver⟩ := Option.bind_eq_some_iff.mp ha
    unfold Loop.receiver? at hreceiver
    split_ifs at hreceiver with hlive
    obtain ⟨hsource, hsubscription⟩ := Prod.mk.inj (Option.some.inj hreceiver)
    have hready : t.loopReady r = false := by
      rw [← ht] at hy ⊢
      exact World.loopReady_of_idle hidle ((Dict.mem_iff_exists _ r).mpr ⟨y, hy⟩)
    rw [loopReady, loop_of_getElem? hy, hsource] at hready
    simp only [hlive.2, Bool.not_false, Bool.true_and, Bool.or_eq_false_iff,
      decide_eq_false_iff_not, not_not] at hready
    obtain ⟨hcancelled, hpending⟩ := hready
    obtain ⟨u, hu, hid, hattached⟩ := Store.attached_of_pending hpending
    refine ⟨y, hy, hlive.1, hlive.2, hcancelled, hsource, u, hu, hid, hattached, ?_⟩
    exact hchannel u hu (hid.trans hsubscription)

section Rest

variable {h : Heap} {log : Log Mark} {r : Nat}

/-- While nobody waits for a loop, the only loop of a listener is the one it is responsible for. -/
theorem Tended.loop_eq_of_rest (hc : Tended l s h log) (hrest : Resting log)
    (hr : h.tiers.receiver? l r ≠ none) : (h.tiers.listener l).loop = some r := by
  rcases hc.owned r hr with hown | ⟨th, hth | hth⟩
  · exact hown
  · rw [hrest.phase_eq th] at hth
    cases hth
  · rw [hrest.phase_eq th] at hth
    cases hth

theorem Resting.not_draining (hrest : Resting log) : ¬ Draining log := by
  rintro ⟨th, r, hth⟩
  rw [hrest.phase_eq th] at hth
  cases hth

/-- What a listener says of itself where one of its loops goes on. -/
theorem Tended.state_of_loop (hc : Tended l s h log) (hrest : Resting log)
    (hr : h.tiers.receiver? l r ≠ none) :
    (Slipped log → (h.tiers.listener l).state = .stopped) ∧
      (¬ Slipped log → (h.tiers.listener l).state = .running) := by
  have hloop := hc.loop_eq_of_rest hrest hr
  constructor
  · intro hslipped
    rcases hc.slipped r hloop hslipped with hstopped | ⟨-, hdraining⟩
    · exact hstopped
    · exact absurd hdraining hrest.not_draining
  · intro hslipped
    exact (hc.honest r hloop hslipped).2.1 hr

/-- What it says where none does. -/
theorem Tended.state_of_no_loop (hc : Tended l s h log) (hrest : Resting log)
    (hnone : ∀ r, h.tiers.receiver? l r = none) : (h.tiers.listener l).state = .stopped := by
  cases hloop : (h.tiers.listener l).loop with
  | none =>
    rcases hc.free hloop with hstopped | ⟨th, hth⟩
    · exact hstopped
    · exact absurd (hrest.phase_eq th) hth
  | some r =>
    by_cases hslipped : Slipped log
    · rcases hc.slipped r hloop hslipped with hstopped | ⟨-, hdraining⟩
      · exact hstopped
      · exact absurd hdraining hrest.not_draining
    · exact (hc.honest r hloop hslipped).2.2 (hnone r)

end Rest

/-- Through any starts and stops of a listener by any tasks: when nothing can happen and no start
and no stop is in progress, what the listener says of itself is the truth, unless the loop that was
started last was started while a stop still waited and has not ended since. In this case exactly one
loop serves the listener, which says that it has stopped. The starts and stops of the tasks are
those of the listener, with marks. -/
theorem truthful_iff {ρ : Type} {now : Nat} {tiers : Tiers} {p : Play Mark ρ}
    (hnew : Unstarted l s tiers)
    (hp : Play.Reachable (handling l s ρ) (Play.opening now tiers [.listener l]) p)
    (hidle : p.world.candidates = []) (hrest : Resting p.log) :
    let t := p.world.heap.tiers
    ((start l).Underlies (notedStart tending l) ∧ (stop l).Underlies (notedStop tending l)) ∧
      (Truthful t l s ↔ ¬ (Slipped p.log ∧ ∃ r, newest p.log = some r ∧ Serves t l s r)) ∧
      (¬ Truthful t l s → (t.listener l).state = .stopped ∧ ∃! r, Serves t l s r) := by
  intro t
  refine ⟨⟨underlies_notedStart tending l, underlies_notedStop tending l⟩, ?_⟩
  have hc : Tended l s p.world.heap p.log :=
    (hp.sound (keep_handling ρ) (Play.sound_opening (hnew.tended now))).inv
  have hserves : ∀ r, Serves t l s r ↔ t.receiver? l r ≠ none := serves_iff hc.wired hidle
  by_cases hsome : ∃ r, Serves t l s r
  · obtain ⟨r, hr⟩ := hsome
    have hreceiver := (hserves r).mp hr
    have hloop := hc.loop_eq_of_rest hrest hreceiver
    have hunique : ∃! i, Serves t l s i := by
      refine ⟨r, hr, fun i hi ↦ ?_⟩
      have hi := hc.loop_eq_of_rest hrest ((hserves i).mp hi)
      rw [hloop] at hi
      exact (Option.some.inj hi).symm
    obtain ⟨hstopped, hrunning⟩ := hc.state_of_loop hrest hreceiver
    by_cases hslipped : Slipped p.log
    · have hfalse : ¬ Truthful t l s := by
        rintro (⟨hstate, -⟩ | ⟨-, hnone⟩)
        · have hboth := (hstopped hslipped).symm.trans hstate
          cases hboth
        · exact hnone r hr
      refine ⟨⟨fun htrue ↦ absurd htrue hfalse, fun hnot ↦ ?_⟩,
        fun _ ↦ ⟨hstopped hslipped, hunique⟩⟩
      exact absurd ⟨hslipped, r, hc.newest_eq r hloop, hr⟩ hnot
    · have htrue : Truthful t l s := Or.inl ⟨hrunning hslipped, hunique⟩
      exact ⟨⟨fun _ hboth ↦ hslipped hboth.1, fun _ ↦ htrue⟩, fun hfalse ↦ absurd htrue hfalse⟩
  · have hnone : ∀ r, t.receiver? l r = none := by
      intro r
      by_contra hr
      exact hsome ⟨r, (hserves r).mpr hr⟩
    have htrue : Truthful t l s :=
      Or.inr ⟨hc.state_of_no_loop hrest hnone, fun r hr ↦ hsome ⟨r, hr⟩⟩
    refine ⟨⟨fun _ hboth ↦ ?_, fun _ ↦ htrue⟩, fun hfalse ↦ absurd htrue hfalse⟩
    obtain ⟨-, r, -, hr⟩ := hboth
    exact hsome ⟨r, hr⟩

/-- A listener is started, hears of a key, and runs. -/
theorem truthful_of_started :
    let tiers := Tiers.empty.setListener 0 (.idle 0 (.store 0) "c" (Clock.secs 1))
    let first : Play Mark Unit := .opening 0 tiers [.listener 0]
    let code : Marked Mark Unit := notedStart tending 0 fun _ ↦
      .act (Call.onStore 0 fun _ ↦ Store.publish "c" "k") fun _ ↦ .done ()
    let spawned := first.apply (.spawn [] code)
    let started := spawned.apply (.run (.task 0))
    let last := started.apply (.run (.loop 0))
    code.call = ((start 0).bind fun _ ↦
      (Call.onStore 0 fun _ ↦ Store.publish "c" "k").bind fun _ ↦ .done ()) ∧
      Play.Reachable (handling 0 0 Unit) first last ∧ last.world.candidates = [] ∧
      Resting last.log ∧ (last.world.heap.tiers.listener 0).applied = 1 ∧
      Truthful last.world.heap.tiers 0 0 := by
  intro tiers first code spawned started last
  have hcode : Handles 0 0 code := .start fun _ ↦ .publish fun _ ↦ .done ()
  have hspawned : Play.Reachable (handling 0 0 Unit) first spawned := .move _ hcode .start
  have hstarted : Play.Reachable (handling 0 0 Unit) first started :=
    .move _ ⟨0, by decide⟩ hspawned
  have hlast : Play.Reachable (handling 0 0 Unit) first last := .move _ ⟨0, by decide⟩ hstarted
  have hidle : last.world.candidates = [] := by decide
  have hrest : Resting last.log := by decide
  have hnew : Unstarted 0 0 tiers := by
    refine ⟨rfl, rfl, fun i ↦ ?_, fun _ ↦ rfl, fun u hu ↦ absurd hu List.not_mem_nil⟩
    rw [listener_setListener]
    split_ifs <;> rfl
  obtain ⟨⟨hunderlies, -⟩, htruthful, -⟩ := truthful_iff hnew hlast hidle hrest
  refine ⟨hunderlies _, hlast, hidle, hrest, by decide, htruthful.mpr ?_⟩
  rintro ⟨⟨th, r, hth⟩, -⟩
  cases hth

/-- A listener is started; then it is stopped, and started while the stop still waits for the loop.
In the end both starts have been answered that the listener runs, nothing can happen and no call is
in progress; the listener says that it has stopped, and its new loop serves it. -/
theorem not_truthful_of_slipped_start :
    let starting : Call (Answer Unit) := start 0
    let stopping : Call (Answer Unit) := do stop 0; return .ok ()
    let first : World (Answer Unit) :=
      .opening 0 (Tiers.empty.setListener 0 (.idle 0 (.store 0) "c" (Clock.secs 1)))
    let moves : List (Move (Answer Unit)) := [.spawn [] starting, .run (.task 0),
      .spawn [] stopping, .spawn [] starting, .run (.task 1), .run (.task 2), .run (.loop 0),
      .run (.task 1)]
    let last := moves.foldl World.apply first
    first.able moves = true ∧ last.candidates = [] ∧ last.tasks.isEmpty = true ∧
      last.conclusions[0]? = some (.answer (.ok ())) ∧
      last.conclusions[2]? = some (.answer (.ok ())) ∧
      (last.heap.tiers.listener 0).state = .stopped ∧ Serves last.heap.tiers 0 0 1 ∧
      ¬ Truthful last.heap.tiers 0 0 := by
  intro starting stopping first moves last
  have hstate : (last.heap.tiers.listener 0).state = .stopped := by decide +kernel
  have hserves : Serves last.heap.tiers 0 0 1 :=
    ⟨⟨0, .store 0, 1, false, false, 0⟩, by decide +kernel, rfl, rfl, rfl, rfl,
      ⟨1, "c", true, [], 0⟩, by decide +kernel, rfl, rfl, by decide +kernel⟩
  refine ⟨by decide +kernel, by decide +kernel, by decide +kernel, by decide +kernel,
    by decide +kernel, hstate, hserves, ?_⟩
  rintro (⟨hrunning, -⟩ | ⟨-, hnone⟩)
  · rw [hstate] at hrunning
    cases hrunning
  · exact hnone 1 hserves

end Listener

end TwoTier
