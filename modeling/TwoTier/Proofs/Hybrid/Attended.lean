import TwoTier.Proofs.Listener.Dismissed
import TwoTier.Proofs.Listener.Honesty
import TwoTier.Tier.Hybrid

/-!
# The listener of a hybrid tier

Whoever uses the listener of a hybrid tier holds the lock of its place meanwhile, so that only one
thread at a time is in a start or a stop of it (`Invalidator.Attended.alone`), and nobody else waits
for the lock of the listener. A start therefore never slips into a stop that still waits
(`Invalidator.Kempt.honest`).

Until it is started for the first time a hybrid tier has no listener (`Invalidator.Bare`). What
happens at a place for a listener goes from the one state to the other, and keeps what holds of each
(`Invalidator.Watched`).
-/

set_option autoImplicit false
set_option relaxedAutoImplicit false

namespace TwoTier

/-! ### Who waits in line -/

namespace Heap

variable {h : Heap} {m m' : Lock} {th me : Nat}

theorem waiting_enqueue_of_ne (hm : m' ≠ m) : (h.enqueue m me).waiting m' = h.waiting m' := by
  unfold enqueue
  split
  · rfl
  · unfold waiting
    rw [Dict.getD_insert, if_neg hm]

theorem waiting_leave_of_ne (hm : m' ≠ m) : (h.leave m me).waiting m' = h.waiting m' := by
  unfold leave waiting
  rw [Dict.getD_insert, if_neg hm]

/-- Whoever comes to a lock that nobody waits for holds it. -/
theorem waiting_enqueue_of_nil (hm : h.waiting m = []) : (h.enqueue m me).waiting m = [me] := by
  unfold enqueue
  rw [hm, if_neg List.not_mem_nil]
  unfold waiting
  rw [Dict.getD_insert, if_pos rfl]
  rfl

theorem mem_waiting_leave (hth : th ∈ (h.leave m me).waiting m') :
    th ∈ h.waiting m' ∧ (m' = m → th ≠ me) := by
  unfold leave waiting at hth
  rw [Dict.getD_insert] at hth
  split_ifs at hth with hm
  · obtain ⟨hmem, hne⟩ := List.mem_filter.mp hth
    rw [hm]
    exact ⟨hmem, fun _ ↦ of_decide_eq_true hne⟩
  · exact ⟨hth, fun heq ↦ absurd heq hm⟩

theorem mem_waiting_leaveAll (hth : th ∈ (h.leaveAll me).waiting m) : th ∈ h.waiting m := by
  unfold leaveAll waiting at hth
  unfold waiting
  rw [Std.ExtTreeMap.getD_eq_getD_getElem?, Std.ExtTreeMap.getElem?_map] at hth
  rw [Std.ExtTreeMap.getD_eq_getD_getElem?]
  cases hm : h.locks[m]? with
  | none =>
    rw [hm] at hth
    exact absurd hth List.not_mem_nil
  | some line =>
    rw [hm] at hth
    exact (List.mem_filter.mp hth).1

end Heap

namespace Invalidator

open Tiers Listener

/-- Beside the listeners of hybrid tiers: no loop is touched, nothing is made, and what else is done
is beside every listener. -/
structure Beside (t t' : Tiers) : Prop where
  slots : t'.slots = t.slots
  loops : t'.loops = t.loops
  next : t'.next = t.next
  aside : ∀ l s, Aside l s t t'

theorem Beside.abides {t t' : Tiers} (h : Beside t t') : Abides t t' :=
  .of_eq h.slots h.loops (Nat.le_of_eq h.next.symm) fun i ↦ (h.aside i 0).listener.channel

theorem Beside.refl (t : Tiers) : Beside t t := ⟨rfl, rfl, rfl, fun _ _ ↦ .refl t⟩

theorem Beside.trans {t t' t'' : Tiers} (h : Beside t t') (h' : Beside t' t'') : Beside t t'' where
  slots := h'.slots.trans h.slots
  loops := h'.loops.trans h.loops
  next := h'.next.trans h.next
  aside l s := (h.aside l s).trans (h'.aside l s)

theorem beside_setStore (t : Tiers) {i : Nat} {x : Store} (hx : (t.store i).Follows x) :
    Beside t (t.setStore i x) :=
  ⟨rfl, rfl, rfl, fun _ _ ↦ aside_setStore t hx⟩

theorem beside_setLocal (t : Tiers) (i : Nat) (x : LocalCache) : Beside t (t.setLocal i x) :=
  ⟨rfl, rfl, rfl, fun _ _ ↦ aside_setLocal t i x⟩

/-- A hybrid tier has a listener, which listens to the channel that was configured. No start of it
has slipped into a stop, and the marks speak of its loops. -/
structure Kempt (c : Front) (l : Nat) (t : Tiers) (log : Log Mark) : Prop where
  slot_eq : t.slots[c.id]? = some l
  channel_eq : (t.listener l).channel = c.settings.channel
  honest : ¬ Slipped log
  recorded : Recorded t log

/-- What holds at every wait of a world in which a hybrid tier has a listener: who is in a start or
a stop of it holds its place, and nobody else waits for the lock of the listener. -/
structure Attended (c : Front) (l s : Nat) (h : Heap) (log : Log Mark) : Prop where
  tended : Tended l s h log
  kempt : Kempt c l h.tiers log
  alone : ∀ th, phase th log ≠ .idle → (h.waiting (.slot c.id)).head? = some th
  line : ∀ th ∈ h.waiting (.listener l), ∃ r, phase th log = .retiring r

/-- What holds before a hybrid tier has a listener, which will have the number `l`. -/
structure Bare (c : Front) (l : Nat) (h : Heap) : Prop where
  slot_eq : h.tiers.slots[c.id]? = none
  next_eq : h.tiers.next = l
  loop_eq : ∀ i, (h.tiers.listener i).loop = none
  loops_eq : ∀ r : Nat, h.tiers.loops[r]? = none
  issued : ∀ s, (h.tiers.store s).Issued
  line : h.waiting (.listener l) = []

/-- What holds at every wait of a world in which a hybrid tier is used. -/
def Watched (c : Front) (l : Nat) (h : Heap) (log : Log Mark) : Prop :=
  (Bare c l h ∧ log = []) ∨ ∃ s, Attended c l s h log

variable {c : Front} {l s me : Nat} {h h' : Heap} {t t' : Tiers} {log : Log Mark}

/-! ### What happens beside -/

theorem Kempt.abides (hk : Kempt c l t log) (ha : Abides t t') : Kempt c l t' log where
  slot_eq := by
    rw [ha.slots]
    exact hk.slot_eq
  channel_eq := (ha.channel l).trans hk.channel_eq
  honest := hk.honest
  recorded := hk.recorded.abides ha

theorem Kempt.cons (hk : Kempt c l t log) {e : Mark} (he : e.Holds t)
    (hslipped : ¬ Slipped ((me, e) :: log)) : Kempt c l t ((me, e) :: log) :=
  ⟨hk.slot_eq, hk.channel_eq, hslipped, hk.recorded.cons he⟩

namespace Attended

/-- What happens beside the listener, while those who are in a start or a stop keep their locks and
nobody comes to wait for that of the listener. -/
theorem step (hc : Attended c l s h log) (haside : Aside l s h.tiers h'.tiers)
    (habides : Abides h.tiers h'.tiers)
    (hhead : ∀ m th, phase th log ≠ .idle → (h.waiting m).head? = some th →
      (h'.waiting m).head? = some th)
    (hline : ∀ th ∈ h'.waiting (.listener l), th ∈ h.waiting (.listener l)) :
    Attended c l s h' log where
  tended := hc.tended.aside haside (hhead _)
  kempt := hc.kempt.abides habides
  alone th hth := hhead _ th hth (hc.alone th hth)
  line th hth := hc.line th (hline th hth)

theorem beside (hc : Attended c l s h log) (ha : Beside h.tiers t) :
    Attended c l s { h with tiers := t } log :=
  hc.step (ha.aside l s) ha.abides (fun _ _ _ hhead ↦ hhead) fun _ hth ↦ hth

theorem enqueue (hc : Attended c l s h log) (me : Nat) :
    Attended c l s (h.enqueue (.slot c.id) me) log := by
  refine hc.step ?_ ?_ (fun _ _ _ hhead ↦ Heap.head?_enqueue hhead _ me) fun th hth ↦ ?_
  · rw [Heap.tiers_enqueue]
    exact .refl _
  · rw [Heap.tiers_enqueue]
    exact .refl _
  · rw [Heap.waiting_enqueue_of_ne (by simp)] at hth
    exact hth

theorem leave (hc : Attended c l s h log) (hme : phase me log = .idle) (m : Lock) :
    Attended c l s (h.leave m me) log :=
  hc.step (.refl _) (.refl _)
    (fun _ _ hth hhead ↦ Heap.head?_leave hhead m fun heq ↦ hth (heq ▸ hme))
    fun _ hth ↦ (Heap.mem_waiting_leave hth).1

theorem leaveAll (hc : Attended c l s h log) (hme : phase me log = .idle) :
    Attended c l s (h.leaveAll me) log :=
  hc.step (.refl _) (.refl _)
    (fun _ _ hth hhead ↦ Heap.head?_leaveAll hhead fun heq ↦ hth (heq ▸ hme))
    fun _ hth ↦ Heap.mem_waiting_leaveAll hth

/-- Whoever holds the place of the hybrid tier and is in no start and no stop knows that nobody
is. -/
theorem idle_of_head (hc : Attended c l s h log) (hme : phase me log = .idle)
    (hhead : (h.waiting (.slot c.id)).head? = some me) (th : Nat) : phase th log = .idle := by
  by_contra hth
  have hfirst := hc.alone th hth
  rw [hhead] at hfirst
  exact hth (Option.some.inj hfirst ▸ hme)

theorem line_eq_nil (hc : Attended c l s h log) (hidle : ∀ th, phase th log = .idle) :
    h.waiting (.listener l) = [] := by
  refine List.eq_nil_iff_forall_not_mem.mpr fun th hth ↦ ?_
  obtain ⟨r, hr⟩ := hc.line th hth
  rw [hidle th] at hr
  cases hr

/-- While nobody is in a start or a stop. -/
theorem of_idle (htended : Tended l s h log) (hkempt : Kempt c l h.tiers log)
    (hidle : ∀ th, phase th log = .idle) (hline : ∀ th, th ∉ h.waiting (.listener l)) :
    Attended c l s h log :=
  ⟨htended, hkempt, fun th hth ↦ absurd (hidle th) hth, fun th hth ↦ absurd hth (hline th)⟩

end Attended

namespace Bare

theorem step (hb : Bare c l h) (hbeside : Beside h.tiers h'.tiers)
    (hline : ∀ th ∈ h'.waiting (.listener l), th ∈ h.waiting (.listener l)) : Bare c l h' where
  slot_eq := by
    rw [hbeside.slots]
    exact hb.slot_eq
  next_eq := hbeside.next.trans hb.next_eq
  loop_eq i := ((hbeside.aside i 0).listener.loop).trans (hb.loop_eq i)
  loops_eq r := by
    rw [hbeside.loops]
    exact hb.loops_eq r
  issued s := (hbeside.aside 0 s).store.issued (hb.issued s)
  line := by
    refine List.eq_nil_iff_forall_not_mem.mpr fun th hth ↦ ?_
    have hmem := hline th hth
    rw [hb.line] at hmem
    exact absurd hmem List.not_mem_nil

end Bare

namespace Watched

theorem congr (hc : Watched c l h log) (htiers : h'.tiers = h.tiers) (hlocks : h'.locks = h.locks) :
    Watched c l h' log := by
  have hwaiting : ∀ m, h'.waiting m = h.waiting m := fun m ↦ by
    rw [Heap.waiting, Heap.waiting, hlocks]
  rcases hc with ⟨hb, hlog⟩ | ⟨s, hc⟩
  · exact Or.inl ⟨hb.step (htiers ▸ .refl _) fun th hth ↦ hwaiting _ ▸ hth, hlog⟩
  · refine Or.inr ⟨s, hc.step (htiers ▸ .refl _) (htiers ▸ .refl _) (fun m th _ hhead ↦ ?_)
      fun th hth ↦ hwaiting _ ▸ hth⟩
    rw [hwaiting]
    exact hhead

theorem beside (hc : Watched c l h log) (ha : Beside h.tiers t) :
    Watched c l { h with tiers := t } log := by
  rcases hc with ⟨hb, hlog⟩ | ⟨s, hc⟩
  · exact Or.inl ⟨hb.step ha fun _ hth ↦ hth, hlog⟩
  · exact Or.inr ⟨s, hc.beside ha⟩

theorem enqueue (hc : Watched c l h log) (me : Nat) :
    Watched c l (h.enqueue (.slot c.id) me) log := by
  rcases hc with ⟨hb, hlog⟩ | ⟨s, hc⟩
  · refine Or.inl ⟨hb.step ?_ fun th hth ↦ ?_, hlog⟩
    · rw [Heap.tiers_enqueue]
      exact .refl _
    · rw [Heap.waiting_enqueue_of_ne (by simp)] at hth
      exact hth
  · exact Or.inr ⟨s, hc.enqueue me⟩

theorem leave (hc : Watched c l h log) (hme : phase me log = .idle) (m : Lock) :
    Watched c l (h.leave m me) log := by
  rcases hc with ⟨hb, hlog⟩ | ⟨s, hc⟩
  · exact Or.inl ⟨hb.step (.refl _) fun _ hth ↦ (Heap.mem_waiting_leave hth).1, hlog⟩
  · exact Or.inr ⟨s, hc.leave hme m⟩

theorem leaveAll (hc : Watched c l h log) (hme : phase me log = .idle) :
    Watched c l (h.leaveAll me) log := by
  rcases hc with ⟨hb, hlog⟩ | ⟨s, hc⟩
  · exact Or.inl ⟨hb.step (.refl _) fun _ hth ↦ Heap.mem_waiting_leaveAll hth, hlog⟩
  · exact Or.inr ⟨s, hc.leaveAll hme⟩

/-- Where somebody is in a start or a stop there is a listener. -/
theorem attended (hc : Watched c l h log) (hme : phase me log ≠ .idle) :
    ∃ s, Attended c l s h log := by
  rcases hc with ⟨-, rfl⟩ | hc
  · exact absurd rfl hme
  · exact hc

end Watched

/-! ### Receive loops, and what is given up -/

/-- Where no listener has a loop, what is given up is beside all of them. -/
theorem beside_release (h : ∀ i, (t.listener i).loop = none) (held : List Held) :
    Beside t (t.release held) := by
  refine release_of_abandon (R := fun t t' ↦ (∀ i, (t.listener i).loop = none) → Beside t t')
    (fun t _ ↦ .refl t) (fun hfirst hnext h ↦ ?_) (fun t i h ↦ ?_) (fun t i _ ↦ ?_) t held h
  · have hbeside := hfirst h
    refine hbeside.trans (hnext fun i ↦ ?_)
    exact ((hbeside.aside i 0).listener.loop).trans (h i)
  · have htaken : Beside t (t.takeLoop i).2 := by
      refine ⟨rfl, rfl, rfl, fun l s ↦ aside_setListener t (fun _ ↦ ⟨rfl, rfl, rfl, ?_⟩)
        fun r hr ↦ absurd hr.symm (Option.some_ne_none r)⟩
      exact (h i).symm
    have hnone : (t.takeLoop i).1 = none := h i
    unfold abandonListener
    split <;> rename_i heq <;> rw [heq] at hnone htaken
    · cases hnone
    · exact htaken
  · exact beside_setStore t (Store.follows_disconnectAll _)

/-- The listener of a place that is held is held. -/
theorem mem_closure_of_slot {id : Nat} (hslot : t.slots[id]? = some l) {held : List Held}
    (hheld : Held.slot id ∈ held) : Held.listener l ∈ t.closure held := by
  refine List.mem_flatMap.mpr ⟨_, hheld, List.mem_cons_of_mem _ ?_⟩
  refine List.mem_flatMap.mpr ⟨l, ?_, List.mem_cons_self⟩
  simp [listenerOf, hslot]

theorem Watched.release (hc : Watched c l h log) {held : List Held}
    (hheld : Held.slot c.id ∈ held) :
    Watched c l { h with tiers := h.tiers.release held } log := by
  rcases hc with ⟨hb, hlog⟩ | ⟨s, hc⟩
  · exact Or.inl ⟨hb.step (beside_release hb.loop_eq held) fun _ hth ↦ hth, hlog⟩
  · have hkept := mem_closure_of_slot hc.kempt.slot_eq hheld
    exact Or.inr ⟨s, hc.step (aside_release_of_closure hc.tended.wired.anchored hkept)
      (abides_release _ _) (fun _ _ _ hhead ↦ hhead) fun _ hth ↦ hth⟩

/-- A receive loop that takes a step keeps what holds. -/
theorem Watched.stepLoop (hc : Watched c l h log) {r : Nat} (n : Nat) (hr : r ∈ h.tiers.loops)
    (hready : h.tiers.loopReady r = true) :
    Watched c l { h with tiers :=
      (h.tiers.stepLoop r).setLoop r { (h.tiers.stepLoop r).loop r with since := n } } log := by
  rcases hc with ⟨hb, -⟩ | ⟨s, hc⟩
  · obtain ⟨y, hy⟩ := (Dict.mem_iff_exists _ r).mp hr
    rw [hb.loops_eq r] at hy
    cases hy
  · refine Or.inr ⟨s, hc.tended.stepLoop n hr hready, hc.kempt.abides ?_, hc.alone, hc.line⟩
    exact (abides_stepLoop _ r).trans (abides_setLoop _ fun h ↦ h)

/-! ### A listener is made -/

/-- The first start makes the listener of the hybrid tier. -/
theorem Bare.attended (hb : Bare c l h) {x : Listener} (hsource : x.source = .store s)
    (hchannel : x.channel = c.settings.channel) (hstate : x.state = .stopped)
    (hloop : x.loop = none) :
    Attended c l s { h with tiers :=
      { ({ h.tiers with next := l + 1 } : Tiers).setListener l x with
        slots := h.tiers.slots.insert c.id l } } [] := by
  have hlistener : ∀ (t : Tiers) i, (t.setListener l x).listener i =
      if i = l then x else t.listener i := fun t i ↦ listener_setListener t l i x
  generalize htiers : ({ ({ h.tiers with next := l + 1 } : Tiers).setListener l x with
    slots := h.tiers.slots.insert c.id l } : Tiers) = t
  have hsame : t.listener l = x := by
    rw [← htiers]
    exact (hlistener _ l).trans (if_pos rfl)
  have hnew : Unstarted l s t := by
    refine ⟨?_, ?_, fun i ↦ ?_, fun r ↦ ?_, ?_⟩
    · rw [hsame]
      exact hsource
    · rw [hsame]
      exact hstate
    · rw [← htiers]
      change ((Tiers.setListener _ l x).listener i).loop = none
      rw [hlistener]
      split_ifs
      · exact hloop
      · exact hb.loop_eq i
    · rw [← htiers]
      exact hb.loops_eq r
    · rw [← htiers]
      exact hb.issued s
  refine .of_idle ((hnew.tended h.now).aside (.refl t) fun th hth ↦ absurd rfl hth)
    ⟨?_, ?_, not_false, fun x hx ↦ absurd hx List.not_mem_nil⟩ (fun _ ↦ rfl) fun th hth ↦ ?_
  · rw [← htiers]
    exact (Dict.getElem?_insert ..).trans (if_pos rfl)
  · dsimp only
    rw [hsame]
    exact hchannel
  · change th ∈ h.waiting (.listener l) at hth
    rw [hb.line] at hth
    exact absurd hth List.not_mem_nil

end Invalidator

end TwoTier
