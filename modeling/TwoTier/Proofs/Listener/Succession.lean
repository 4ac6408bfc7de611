import TwoTier.Proofs.Engine.Parting
import TwoTier.Proofs.Listener.Dealings

/-!
# One subscription after the other

A start that replaces a loop holds the lock of the listener while it waits for the end of that loop,
so that no other start makes a loop meanwhile (`Notice.Succession`). Hence the loop of each
subscription is told to end before the next subscription is made (`Notice.ordered_of_chronicle`),
and nothing is taken from it any more.
-/

set_option autoImplicit false
set_option relaxedAutoImplicit false

namespace TwoTier

namespace Notice

open Tiers Listener
open Marked (marks)

/-- Before a subscription is made, the loops of all earlier ones were told to end. -/
def Ordered : List Event → Prop
  | [] => True
  | .subscribed _ _ :: es => (∀ j channel, .subscribed j channel ∈ es → .told j ∈ es) ∧ Ordered es
  | _ :: es => Ordered es

theorem Ordered.told {newer older : List Event} {i j : Nat} {channel channel' : String}
    (h : Ordered (newer ++ .subscribed i channel :: older)) (hj : .subscribed j channel' ∈ older) :
    .told j ∈ older := by
  induction newer with
  | nil => exact h.1 j channel' hj
  | cons e newer ih =>
    refine ih ?_
    cases e with
    | subscribed => exact h.2
    | _ => exact h

/-- A thread waits, in a start, for the loop before to end. -/
def Replaces (th : Nat) (log : Log Event) : Prop :=
  (Marked.marksOf th log).head?.map Prod.snd = some .replacing

section Replaces

variable {th me : Nat} {e : Event} {log log' : Log Event}

theorem replaces_congr (h : Marked.marksOf th log' = Marked.marksOf th log) :
    Replaces th log' ↔ Replaces th log := by
  rw [Replaces, h, Replaces]

theorem replaces_cons_self : Replaces me ((me, e) :: log) ↔ e = .replacing := by
  simp [Replaces, Marked.marksOf]

theorem replaces_cons_of_ne (h : th ≠ me) : Replaces th ((me, e) :: log) ↔ Replaces th log :=
  replaces_congr (by simp [Marked.marksOf, h.symm])

/-- After a mark of another kind its thread is in no start. -/
theorem replaces_of_cons (he : e ≠ .replacing) (h : Replaces th ((me, e) :: log)) :
    th ≠ me ∧ Replaces th log := by
  have hne : th ≠ me := fun heq ↦ he (replaces_cons_self.mp (heq ▸ h))
  exact ⟨hne, (replaces_cons_of_ne hne).mp h⟩

theorem not_replaces_cons (he : e ≠ .replacing) : ¬ Replaces me ((me, e) :: log) :=
  fun h ↦ he (replaces_cons_self.mp h)

end Replaces

/-! ### What leaves the loop of a listener as it is -/

/-- A listener is responsible for the loop that it was responsible for, and loops keep their
subscriptions. -/
structure Stays (l : Nat) (t t' : Tiers) : Prop where
  source : (t'.listener l).source = (t.listener l).source
  loop : (t'.listener l).loop = (t.listener l).loop
  subscription : ∀ r, (t'.loop r).subscription = (t.loop r).subscription

section Stays

variable {l : Nat} {t t' t'' : Tiers}

theorem Stays.refl (l : Nat) (t : Tiers) : Stays l t t := ⟨rfl, rfl, fun _ ↦ rfl⟩

theorem Stays.trans (h : Stays l t t') (h' : Stays l t' t'') : Stays l t t'' :=
  ⟨h'.source.trans h.source, h'.loop.trans h.loop,
    fun r ↦ (h'.subscription r).trans (h.subscription r)⟩

/-- What does not touch the loops. -/
theorem Stays.of_loops (hsource : (t'.listener l).source = (t.listener l).source)
    (hloop : (t'.listener l).loop = (t.listener l).loop) (hloops : t'.loops = t.loops) :
    Stays l t t' :=
  ⟨hsource, hloop, fun r ↦ by unfold Tiers.loop; rw [hloops]⟩

theorem Stays.of_aside {s : Nat} (h : Aside l s t t') (hloops : t'.loops = t.loops) :
    Stays l t t' :=
  .of_loops h.listener.source h.listener.loop hloops

theorem Untouched.stays {a : Site} (h : Untouched a t t') : Stays a.listener t t' :=
  .of_loops (congrArg Listener.source h.listener) (h.loop a.listener) h.loops

theorem stays_setStore (l : Nat) (t : Tiers) (i : Nat) (x : Store) : Stays l t (t.setStore i x) :=
  ⟨rfl, rfl, fun _ ↦ rfl⟩

theorem stays_setStage (t : Tiers) (l : Nat) (state : ListenerState) :
    Stays l t (t.setStage l state) := by
  have hlistener := listener_setStage t l state
  exact .of_loops (by rw [hlistener]) (by rw [hlistener]) rfl

theorem takeLoop_fields (t : Tiers) (l : Nat) :
    ((t.takeLoop l).2.listener l).source = (t.listener l).source ∧
      ((t.takeLoop l).2.listener l).loop = none := by
  rw [listener_takeLoop]
  exact ⟨rfl, rfl⟩

theorem stays_setLoop (l : Nat) (t : Tiers) {r : Nat} {y : Loop}
    (hy : y.subscription = (t.loop r).subscription) : Stays l t (t.setLoop r y) := by
  refine ⟨rfl, rfl, fun i ↦ ?_⟩
  rw [loop_setLoop]
  split_ifs with hi
  · rw [hi, hy]
  · rfl

theorem stays_closeLoop (l : Nat) (t : Tiers) (r : Nat) : Stays l t (t.closeLoop r) := by
  have hlistener := listener_closeLoop t r l
  refine ⟨congrArg Listener.source hlistener, congrArg Listener.loop hlistener, fun i ↦ ?_⟩
  unfold closeLoop
  dsimp only
  rw [loop_setLoop]
  split_ifs with hi
  · rw [hi]
  · unfold Tiers.loop
    rw [loops_unsubscribe]

theorem stays_endLoop (l : Nat) (t : Tiers) (r : Nat) : Stays l t (t.endLoop r) := by
  unfold endLoop
  dsimp only
  split
  · refine (stays_closeLoop l t r).trans (.of_loops ?_ ?_ rfl)
    all_goals
      rw [listener_setListener]
      split_ifs with hl
      · rw [hl]
      · rfl
  · exact stays_closeLoop l t r

theorem stays_stepLoop (l : Nat) (t : Tiers) (r : Nat) : Stays l t (t.stepLoop r) := by
  rcases aside_or_endLoop (l := l) (s := 0) t r with ⟨haside, hloops⟩ | ⟨t', haside, hloops, heq⟩
  · exact .of_aside haside hloops
  · rw [heq]
    exact (Stays.of_aside haside hloops).trans (stays_endLoop l t' r)

/-- What is given up is not the listener, while that is held. -/
theorem stays_release {held : List Held} (hl : Held.listener l ∈ held) :
    Stays l t (t.release held) := by
  refine release_of_lost (.refl l) .trans (fun i hi t' _ ↦ ?_)
    fun i _ t' _ ↦ stays_setStore l t' i _
  have hne : l ≠ i := fun heq ↦ hi (List.mem_flatMap.mpr ⟨_, heq ▸ hl, List.mem_cons_self⟩)
  have hlistener : (t'.takeLoop i).2.listener l = t'.listener l :=
    (listener_setListener t' i l _).trans (if_neg hne)
  have htaken : Stays l t' (t'.takeLoop i).2 :=
    .of_loops (congrArg Listener.source hlistener) (congrArg Listener.loop hlistener) rfl
  unfold abandonListener
  split <;> rename_i heq <;> rw [heq] at htaken
  · exact htaken.trans (stays_setLoop l _ rfl)
  · exact htaken

end Stays

/-! ### The succession -/

/-- What holds at every wait: each subscription whose loop was not told to end is that of the loop
which the listener is responsible for, and there is no such loop while a start, which holds the
lock, waits for one to end. -/
structure Succession (l s : Nat) (h : Heap) (log : Log Event) : Prop where
  source : (h.tiers.listener l).source = .store s
  ordered : Ordered (log.map Prod.snd)
  owned : ∀ j channel, .subscribed j channel ∈ log.map Prod.snd → .told j ∈ log.map Prod.snd ∨
    ∃ r, (h.tiers.listener l).loop = some r ∧ (h.tiers.loop r).subscription = j
  replacing : ∀ th, Replaces th log →
    (h.waiting (.listener l)).head? = some th ∧ (h.tiers.listener l).loop = none

namespace Succession

variable {l s me : Nat} {h h' : Heap} {e : Event} {log : Log Event}

/-- What happens beside the listener, while those who wait in a start keep the lock. -/
theorem beside (hc : Succession l s h log) (ht : Stays l h.tiers h'.tiers)
    (hline : ∀ th, Replaces th log → (h.waiting (.listener l)).head? = some th →
      (h'.waiting (.listener l)).head? = some th) : Succession l s h' log where
  source := ht.source.trans hc.source
  ordered := hc.ordered
  owned j channel hj := by
    refine (hc.owned j channel hj).imp id fun ⟨r, hr, hsubscription⟩ ↦ ?_
    exact ⟨r, ht.loop.trans hr, (ht.subscription r).trans hsubscription⟩
  replacing th hth := by
    obtain ⟨hhead, hloop⟩ := hc.replacing th hth
    exact ⟨hline th hth hhead, ht.loop.trans hloop⟩

theorem stays (hc : Succession l s h log) {t : Tiers} (ht : Stays l h.tiers t) :
    Succession l s { h with tiers := t } log :=
  hc.beside ht fun _ _ hhead ↦ hhead

/-- Whatever is asked of a store. -/
theorem onStore {β : Type} (hc : Succession l s h log) (me i : Nat)
    (op : Nat → Store → Outcome β × Store) :
    (Call.onStore i op).AtOnce me h (fun _ h' ↦ Succession l s h' log)
      fun h' ↦ Succession l s h' log :=
  Call.AtOnce.onStore_of_heap (hc.stays (stays_setStore l _ i _))

theorem enqueue (hc : Succession l s h log) (m : Lock) (me : Nat) :
    Succession l s (h.enqueue m me) log := by
  refine hc.beside ?_ fun th _ hhead ↦ Heap.head?_enqueue hhead m me
  rw [Heap.tiers_enqueue]
  exact .refl l _

theorem leave (hc : Succession l s h log) (hme : ¬ Replaces me log) (m : Lock) :
    Succession l s (h.leave m me) log :=
  hc.beside (.refl l _) fun _ hth hhead ↦ Heap.head?_leave hhead m fun heq ↦ hme (heq ▸ hth)

theorem leaveAll (hc : Succession l s h log) (hme : ¬ Replaces me log) :
    Succession l s (h.leaveAll me) log :=
  hc.beside (.refl l _) fun _ hth hhead ↦ Heap.head?_leaveAll hhead fun heq ↦ hme (heq ▸ hth)

/-- A mark that is no matter of starts. -/
theorem note (hc : Succession l s h log) (me : Nat) (he : e ≠ .replacing)
    (hsubscribed : ∀ i channel, e ≠ .subscribed i channel) : Succession l s h ((me, e) :: log) where
  source := hc.source
  ordered := by
    have hordered := hc.ordered
    cases e with
    | subscribed i channel => exact absurd rfl (hsubscribed i channel)
    | _ => exact hordered
  owned j channel hj := by
    refine (hc.owned j channel ((List.mem_cons.mp hj).resolve_left fun heq ↦ ?_)).imp
      (List.mem_cons_of_mem _) id
    exact hsubscribed j channel heq.symm
  replacing th hth := hc.replacing th (replaces_of_cons he hth).2

/-- The loop of the listener is taken over, and told to end. -/
theorem told (hc : Succession l s h log) {r : Nat} (hloop : (h.tiers.listener l).loop = some r)
    (hsource : (h'.tiers.listener l).source = (h.tiers.listener l).source) :
    Succession l s h' ((me, .told (h.tiers.loop r).subscription) :: log) where
  source := hsource.trans hc.source
  ordered := hc.ordered
  owned j channel hj := by
    have hbefore := (List.mem_cons.mp hj).resolve_left fun heq ↦ by cases heq
    refine Or.inl ?_
    rcases hc.owned j channel hbefore with htold | ⟨i, hi, rfl⟩
    · exact List.mem_cons_of_mem _ htold
    · rw [hloop] at hi
      rw [← Option.some.inj hi]
      exact List.mem_cons_self
  replacing th hth := by
    have hbefore := (hc.replacing th (replaces_of_cons (by simp) hth).2).2
    rw [hloop] at hbefore
    cases hbefore

/-- A start holds the lock, and begins to wait. -/
theorem replace (hc : Succession l s h log) (hhead : (h.waiting (.listener l)).head? = some me)
    (hloop : (h.tiers.listener l).loop = none) :
    Succession l s h ((me, .replacing) :: log) where
  source := hc.source
  ordered := hc.ordered
  owned j channel hj := by
    have hbefore := (List.mem_cons.mp hj).resolve_left fun heq ↦ by cases heq
    exact (hc.owned j channel hbefore).imp (List.mem_cons_of_mem _) id
  replacing th hth := by
    by_cases hne : th = me
    · rw [hne]
      exact ⟨hhead, hloop⟩
    · exact hc.replacing th ((replaces_cons_of_ne hne).mp hth)

/-- A start that holds the lock makes a loop for a new subscription. -/
theorem subscribed (hc : Succession l s h log) (hhead : (h.waiting (.listener l)).head? = some me)
    (hloop : (h.tiers.listener l).loop = none) (i : Nat) (channel : String) :
    Succession l s { h with tiers := h.tiers.startLoop l i }
      ((me, .subscribed i channel) :: log) := by
  have htold : ∀ j channel, .subscribed j channel ∈ log.map Prod.snd →
      .told j ∈ log.map Prod.snd := by
    refine fun j channel hj ↦ (hc.owned j channel hj).resolve_right fun ⟨r, hr, _⟩ ↦ ?_
    rw [hloop] at hr
    cases hr
  have hlistener := (listener_startLoop h.tiers l i l).trans (if_pos rfl)
  have hnew : (h.tiers.startLoop l i).loop h.tiers.next =
      ⟨l, (h.tiers.listener l).source, i, false, false, 0⟩ :=
    loop_of_getElem? ((loops_startLoop h.tiers l i h.tiers.next).trans (if_pos rfl))
  refine ⟨?_, ⟨htold, hc.ordered⟩, fun j channel' hj ↦ ?_, fun th hth ↦ ?_⟩
  · dsimp only
    rw [hlistener]
    exact hc.source
  · rcases List.mem_cons.mp hj with heq | hj
    · refine Or.inr ⟨h.tiers.next, ?_, ?_⟩ <;> dsimp only
      · rw [hlistener]
      · rw [hnew, (Event.subscribed.inj heq).1]
    · exact Or.inl (List.mem_cons_of_mem _ (htold j channel' hj))
  · obtain ⟨hne, hth⟩ := replaces_of_cons (by simp) hth
    have hfirst := (hc.replacing th hth).1
    rw [hhead] at hfirst
    exact absurd (Option.some.inj hfirst).symm hne

end Succession

/-! ### The calls keep it -/

section Safe

variable {α : Type} {l s me : Nat} {h : Heap} {log : Log Event}

/-- A thread that is in no start keeps the succession. -/
def Proceeds (l s me : Nat) (m : Marked Event α) : Prop :=
  ∀ h log, Succession l s h log → ¬ Replaces me log →
    Marked.Safe (Succession l s) me m h log

theorem safe_subscribes {k : Answer Unit → Marked Event α} (hk : ∀ b, Proceeds l s me (k b))
    (hc : Succession l s h log) (hhead : (h.waiting (.listener l)).head? = some me)
    (hloop : (h.tiers.listener l).loop = none) :
    Marked.Safe (Succession l s) me (notedSubscribe entries l k) h log := by
  refine Or.inl ⟨_, (), rfl, Or.inl ⟨_, _, rfl, ?_⟩⟩
  have hstage := stays_setStage h.tiers l .starting
  dsimp only
  rw [hstage.source.trans hc.source]
  have hsubscribed :
      (subscribe (.store s) ((h.tiers.setStage l .starting).listener l).channel).AtOnce
      me { h with tiers := h.tiers.setStage l .starting }
      (fun _ h' ↦ Succession l s h' log ∧ (h'.waiting (.listener l)).head? = some me ∧
        (h'.tiers.listener l).loop = none) fun _ ↦ False := by
    change (Call.onStore s fun _ ↦ Store.subscribe _).AtOnce me _ _ _
    have hafter : ∀ x, Succession l s
        { h with tiers := (h.tiers.setStage l .starting).setStore s x } log :=
      fun x ↦ hc.stays (hstage.trans (stays_setStore l _ s x))
    exact Call.AtOnce.onStore (fun _ _ ↦ ⟨hafter _, hhead, hstage.loop.trans hloop⟩)
      (fun _ _ ↦ ⟨hafter _, hhead, hstage.loop.trans hloop⟩)
      fun ho ↦ Store.subscribe_ne_overflow _ _ ho
  refine Marked.Safe.of_atOnce hsubscribed (fun o h' hafter ↦ ?_) fun _ hfail ↦ hfail.elim
  obtain ⟨hc', hhead', hloop'⟩ := hafter
  cases o with
  | ok i =>
    have hme : ¬ Replaces me
        ((me, .subscribed i ((h.tiers.setStage l .starting).listener l).channel) :: log) :=
      not_replaces_cons (by simp)
    exact Or.inl ⟨_, (), rfl, hk _ _ _ ((hc'.subscribed hhead' hloop' i _).leave hme _) hme⟩
  | error f =>
    have hme : ¬ Replaces me ((me, .refused) :: log) := not_replaces_cons (by simp)
    exact Or.inl ⟨_, (), rfl, hk _ _ _ (((hc'.note me (by simp) (by simp)).stays
      (stays_setStage _ l .stopped)).leave hme _) hme⟩

theorem proceeds_notedStart {k : Answer Unit → Marked Event α} (hk : ∀ b, Proceeds l s me (k b)) :
    Proceeds l s me (notedStart entries l k) := by
  refine fun h log hc hme ↦ ⟨hc, fun h' log' hc' hmarks ↦ ⟨hc'.enqueue _ me, fun hhead ↦ ?_⟩⟩
  have hc₁ := hc'.enqueue (.listener l) me
  have hme₁ : ¬ Replaces me log' := fun hth ↦ hme ((replaces_congr hmarks).mp hth)
  generalize h'.enqueue (.listener l) me = h₁ at hhead hc₁
  obtain ⟨hsource, hnone⟩ := takeLoop_fields h₁.tiers l
  refine Or.inl ⟨_, _, rfl, ?_⟩
  dsimp only
  cases isServed h₁ l with
  | true => exact hk _ _ _ (hc₁.leave hme₁ _) hme₁
  | false =>
    refine Or.inl ⟨_, _, rfl, ?_⟩
    dsimp only [takeLoop]
    cases hloop : (h₁.tiers.listener l).loop with
    | none =>
      exact safe_subscribes hk (hc₁.stays (.of_loops hsource (hnone.trans hloop.symm) rfl)) hhead
        hnone
    | some r =>
      have htold : Succession l s { h₁ with tiers := (h₁.tiers.takeLoop l).2.cancelLoop r }
          ((me, .told (h₁.tiers.loop r).subscription) :: log') :=
        hc₁.told hloop hsource
      refine Or.inl ⟨_, (), rfl, htold.replace hhead hnone,
        fun h₂ log₂ hc₂ hmarks₂ ↦ ⟨fun _ ↦ ?_, fun hdue ↦ ?_⟩⟩
      · obtain ⟨hhead₂, hloop₂⟩ :=
          hc₂.replacing me ((replaces_congr hmarks₂).mpr (replaces_cons_self.mpr rfl))
        exact safe_subscribes hk hc₂ hhead₂ hloop₂
      · cases hdue

theorem proceeds_notedSettle {r : Nat} {k : Unit → Marked Event α} (hk : ∀ b, Proceeds l s me (k b))
    (inTime : Bool) : Proceeds l s me (notedSettle entries l r k inTime) := by
  intro h log hc hme
  cases inTime with
  | true => exact Or.inl ⟨_, (), rfl, hk _ _ _ (hc.stays (stays_setStage _ l .stopped)) hme⟩
  | false =>
    exact Or.inl ⟨_, (), rfl, hk _ _ _ ((hc.note me (by simp) (by simp)).stays
      ((stays_closeLoop l _ r).trans (stays_setStage _ l .stopped))) (not_replaces_cons (by simp))⟩

theorem proceeds_notedStop {k : Unit → Marked Event α} (hk : ∀ b, Proceeds l s me (k b)) :
    Proceeds l s me (notedStop entries l k) := by
  refine fun h log hc hme ↦ ⟨hc, fun h' log' hc' hmarks ↦ ⟨hc'.enqueue _ me, fun _ ↦ ?_⟩⟩
  have hc₁ := hc'.enqueue (.listener l) me
  have hme₁ : ¬ Replaces me log' := fun hth ↦ hme ((replaces_congr hmarks).mp hth)
  generalize h'.enqueue (.listener l) me = h₁ at hc₁
  obtain ⟨hsource, hnone⟩ := takeLoop_fields h₁.tiers l
  refine Or.inl ⟨_, _, rfl, ?_⟩
  dsimp only [takeLoop, Marked.Safe]
  cases hloop : (h₁.tiers.listener l).loop with
  | none =>
    have hc₂ : Succession l s { h₁ with tiers := (h₁.tiers.takeLoop l).2 } log' :=
      hc₁.stays (.of_loops hsource (hnone.trans hloop.symm) rfl)
    exact hk _ _ _ (hc₂.leave hme₁ _) hme₁
  | some r =>
    have htold : ¬ Replaces me ((me, .told (h₁.tiers.loop r).subscription) :: log') :=
      not_replaces_cons (by simp)
    refine Or.inl ⟨_, (), rfl, Or.inl ⟨_, _, rfl, hc₁.told hloop ?_, fun h₂ log₂ hc₂ hmarks₂ ↦ ?_⟩⟩
    · exact (stays_setStage _ l .stopping).source.trans hsource
    · have hme₂ : ¬ Replaces me log₂ := fun hth ↦ htold ((replaces_congr hmarks₂).mp hth)
      exact ⟨fun _ ↦ proceeds_notedSettle hk true _ _ hc₂ hme₂,
        fun _ ↦ proceeds_notedSettle hk false _ _ hc₂ hme₂⟩

theorem proceeds_notedDrop {k : Unit → Marked Event α} (hk : ∀ b, Proceeds l s me (k b)) :
    Proceeds l s me (notedDrop l k) := by
  refine fun h log hc hme ↦ Or.inl ⟨_, _, rfl, ?_⟩
  obtain ⟨hsource, hnone⟩ := takeLoop_fields h.tiers l
  dsimp only [abandonListener, takeLoop]
  cases hloop : (h.tiers.listener l).loop with
  | none => exact hk _ _ _ (hc.stays (.of_loops hsource (hnone.trans hloop.symm) rfl)) hme
  | some r => exact hk _ _ _ (hc.told hloop hsource) (not_replaces_cons (by simp))

/-- Payloads were published. -/
theorem safe_published {channel : String} {k : Marked Event α} (hk : Proceeds l s me k)
    (payloads : List String) :
    Proceeds l s me (marks (payloads.map fun p _ ↦ .published channel p) k) := by
  induction payloads with
  | nil => exact hk
  | cons p payloads ih =>
    exact fun h log hc hme ↦ ih h _ (hc.note me (by simp) (by simp)) (not_replaces_cons (by simp))

/-- Whoever has to do with the listener keeps the succession. -/
theorem Deals.proceeds {a : Site} {m : Marked Event α} (hm : Deals a False m) (me : Nat) :
    Proceeds a.listener a.store me m := by
  -- a thread that is in no start is in none whatever others do meanwhile
  have hlater : ∀ {me : Nat} {log log' : Log Event}, ¬ Replaces me log →
      Marked.marksOf me log' = Marked.marksOf me log → ¬ Replaces me log' :=
    fun hme hmarks hth ↦ hme ((replaces_congr hmarks).mp hth)
  induction hm generalizing me with
  | done b => exact fun h log hc hme ↦ hc.leaveAll hme
  | crash => exact fun h log hc hme ↦ hc.leaveAll hme
  | start _ ih => exact proceeds_notedStart fun b ↦ ih b me
  | stop _ ih => exact proceeds_notedStop fun b ↦ ih b me
  | drop _ ih => exact proceeds_notedDrop fun b ↦ ih b me
  | replace hmid => exact hmid.elim
  | settle hmid => exact hmid.elim
  | publish _ ih =>
    intro h log hc hme
    refine Marked.Safe.of_atOnce (hc.onStore _ _ _) (fun o h' hc' ↦ ?_)
      fun h' hc' ↦ hc'.leaveAll hme
    cases o with
    | ok _ => exact safe_published (ih _ me) _ _ _ hc' hme
    | error f => exact ih _ me _ _ hc' hme
  | disconnect _ ih =>
    intro h log hc hme
    exact Or.inl ⟨_, (), rfl, ih () me _ _ ((hc.stays (stays_setStore _ _ _ _)).note me (by simp)
      (by simp)) (not_replaces_cons (by simp))⟩
  | look _ ih => exact fun h log hc hme ↦ Or.inl ⟨_, _, rfl, ih _ me _ _ hc hme⟩
  | use hf _ ih =>
    intro h log hc hme
    exact Or.inl ⟨_, _, rfl, ih _ me _ _ ((hc.stays (hf h).stays).note me (by simp) (by simp))
      (not_replaces_cons (by simp))⟩
  | useStore _ _ _ ih =>
    intro h log hc hme
    refine Marked.Safe.of_atOnce (hc.onStore _ _ _) (fun b h' hc' ↦ ?_)
      fun h' hc' ↦ hc'.leaveAll hme
    exact ih b me _ _ (hc'.note me (by simp) (by simp)) (not_replaces_cons (by simp))
  | elsewhere hf _ ih =>
    exact fun h log hc hme ↦ Or.inl ⟨_, _, rfl, ih _ me _ _ (hc.stays (hf h).stays) hme⟩
  | pause _ ih =>
    exact fun h log hc hme ↦ ⟨hc, fun h' log' hc' hmarks ↦ ih me h' log' hc' (hlater hme hmarks)⟩
  | sleep _ ih =>
    exact fun h log hc hme ↦ ⟨hc, fun h' log' hc' hmarks ↦ ih me h' log' hc' (hlater hme hmarks)⟩
  | join _ _ ihfill ih =>
    refine fun h log hc hme ↦ ⟨hc, fun i h' log' hc' hmarks ↦ ihfill i h' log' hc' fun hth ↦ ?_,
      fun o h' log' hc' hmarks ↦ ih o me h' log' hc' (hlater hme hmarks)⟩
    rw [Replaces, hmarks] at hth
    cases hth
  | await _ ih =>
    exact fun h log hc hme ↦
      ⟨hc, fun o h' log' hc' hmarks ↦ ih o me h' log' hc' (hlater hme hmarks)⟩
  | @acquire _ lock _ _ ih =>
    refine fun h log hc hme ↦ ⟨hc, fun h' log' hc' hmarks ↦ ⟨hc'.enqueue lock me, fun _ ↦ ?_⟩⟩
    exact ih me _ _ (hc'.enqueue lock me) (hlater hme hmarks)
  | release _ ih => exact fun h log hc hme ↦ ih me _ _ (hc.leave hme _) hme

end Safe

theorem keep_dealing (a : Site) (ρ : Type) :
    (dealing a ρ).uncancelled.Keep (Succession a.listener a.store) where
  kept :=
    { thread _ _ hc := hc.beside (.refl _ _) fun _ _ hhead ↦ hhead
      clock _ hc := hc.beside (.refl _ _) fun _ _ hhead ↦ hhead
      loop _ _ _ hc := hc.stays ((stays_stepLoop _ _ _).trans (stays_setLoop _ _ rfl))
      release hnamed hc := hc.stays (stays_release (hnamed (List.mem_singleton.mpr rfl))) }
  aborts hfalse := hfalse.elim
  opens hm := hm.opens
  safe hm i h log hc hmarks := by
    refine hm.proceeds i h log hc fun hth ↦ ?_
    rw [Replaces, hmarks] at hth
    cases hth

/-- Whoever is cancelled leaves the mark of a start that was refused: it makes no loop any more. -/
theorem Succession.part {l s : Nat} {h : Heap} {log : Log Event} (hc : Succession l s h log)
    (i : Nat) : Succession l s (h.leaveAll i) ((i, .refused) :: log) :=
  (hc.note i (by simp) (by simp)).leaveAll (not_replaces_cons (by simp))

/-! ### In the history -/

/-- A start or a stop has left this mark of a subscription. -/
def Event.isOrdered : Event → Bool
  | .subscribed _ _ => true
  | .told _ => true
  | _ => false

theorem ordered_filter (es : List Event) : Ordered (es.filter Event.isOrdered) ↔ Ordered es := by
  induction es with
  | nil => exact Iff.rfl
  | cons e es ih =>
    cases e with
    | subscribed i channel =>
      have hmem : ∀ e : Event, e.isOrdered = true → (e ∈ es.filter Event.isOrdered ↔ e ∈ es) :=
        fun e he ↦ List.mem_filter.trans (and_iff_left he)
      refine and_congr (forall_congr' fun j ↦ forall_congr' fun channel' ↦ ?_) ih
      rw [hmem _ rfl, hmem _ rfl]
    | _ => exact ih

theorem heard_filter (t : Tiers) (r : Nat) : (heard t r).filter Event.isOrdered = [] := by
  unfold heard
  dsimp only
  split_ifs
  · rfl
  · rfl
  · split
    · split <;> rfl
    · rfl

/-- The loop of each subscription is told to end before the next subscription is made. -/
theorem ordered_of_chronicle {a : Site} {ρ : Type} {now : Nat} {tiers : Tiers} {p : Play Event ρ}
    {es : List Event} (hsource : (tiers.listener a.listener).source = .store a.store)
    (h : Play.Chronicle (dealing a ρ) heard (.opening now tiers [.listener a.listener]) p es) :
    Ordered es := by
  have hnew :
      Succession a.listener a.store { Heap.initial with now := now, tiers := tiers } [] := by
    refine ⟨hsource, trivial, fun j channel hj ↦ absurd hj List.not_mem_nil, fun th hth ↦ ?_⟩
    cases hth
  obtain ⟨log, hsound, heq⟩ := h.exists_sound rfl (Play.sound_opening hnew) (keep_dealing a ρ)
    (fun i hc ↦ hc.part i) rfl heard_filter
  rw [← ordered_filter, heq, ordered_filter]
  exact hsound.inv.ordered

end Notice

end TwoTier
