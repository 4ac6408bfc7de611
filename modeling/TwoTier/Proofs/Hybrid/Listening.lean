import TwoTier.Proofs.Hybrid.Attended
import TwoTier.Proofs.Hybrid.Noted

/-!
# The use of the listener of a hybrid tier

Starts and stops through a hybrid tier, its end, and what asks for the listener leave the marks of
the listener here (`Invalidator.listen`, `Invalidator.cease`, `Invalidator.finish`,
`Invalidator.askState`, `Invalidator.measure`). Without the marks they are the operations of the
tier (`Invalidator.Links`).

They keep what holds of a tier and its listener (`Invalidator.Watched`). Whoever holds the place of
the tier finds the lock of the listener free (`Invalidator.Admitted`), and is alone with the
listener until it has given the place back (`Invalidator.Alone`), also while it waits for a loop to
end.
-/

set_option autoImplicit false
set_option relaxedAutoImplicit false

namespace TwoTier

namespace Marked

variable {ε α : Type}

/-- A call that begins by taking a lock which nobody else can have, so that it does not wait. -/
def prompt {α : Type} : Marked ε α → Marked ε α
  | acquire m k => act (Call.lock m) fun _ ↦ k
  | m => m

theorem call_prompt (m : Marked ε α) : m.prompt.call = m.call := by
  cases m <;> rfl

theorem Safe.prompt {I : Heap → Log ε → Prop} {me : Nat} {m : Lock} {k : Marked ε α} {h : Heap}
    {l : Log ε} (hhead : ((h.enqueue m me).waiting m).head? = some me)
    (hk : Safe I me k (h.enqueue m me) l) : Safe I me (acquire m k).prompt h l := by
  refine Or.inl ⟨_, (), ?_, hk⟩
  simp only [Call.lock, Call.halt]
  rw [if_pos hhead]

end Marked

namespace Invalidator

open Hybrid (locked)
open Tiers Listener

section Calls

variable {α : Type} (c : Hybrid)

/-! ### Calls with their marks -/

/-- A start. -/
def listen (source : Source) (k : Answer Unit → Marked Mark α) : Marked Mark α :=
  Hybrid.notedStartInvalidator c (fun l k ↦ (notedStart tending l k).prompt) source k

/-- A stop. -/
def cease (k : Unit → Marked Mark α) : Marked Mark α :=
  Hybrid.notedStopInvalidator c (fun l k ↦ (notedStop tending l k).prompt) k

/-- The end of the use of the tier. -/
def finish (k : Answer Unit → Marked Mark α) : Marked Mark α :=
  Hybrid.notedClose c (fun l k ↦ (notedStop tending l k).prompt) k

/-- The stage of the listener is asked for. -/
def askState (k : ListenerState → Marked Mark α) : Marked Mark α := Hybrid.notedState c k

/-- A measurement, the listener included. -/
def measure (k : Snapshot → Marked Mark α) : Marked Mark α := Hybrid.notedStats c k

/-- The operations of a hybrid tier that concern its listener underlie those with marks. -/
structure Links : Prop where
  start : ∀ source, (c.startInvalidator source).Underlies (listen c source)
  stop : c.stopInvalidator.Underlies (cease c)
  close : c.close.Underlies (finish c)
  state : c.invalidatorState.Underlies (askState c)
  stats : c.stats.Underlies (measure c)

theorem links : Links c where
  start := Hybrid.underlies_notedStartInvalidator fun l _ k ↦
    (Marked.call_prompt _).trans (underlies_notedStart tending l k)
  stop := Hybrid.underlies_notedStopInvalidator fun l _ k ↦
    (Marked.call_prompt _).trans (underlies_notedStop tending l k)
  close := Hybrid.underlies_notedClose fun l _ k ↦
    (Marked.call_prompt _).trans (underlies_notedStop tending l k)
  state := Hybrid.underlies_notedState c
  stats := Hybrid.underlies_notedStats c

end Calls

/-! ### The calls keep what holds -/

section Safe

variable {α β : Type} {c : Hybrid} {l s me : Nat} {h : Heap} {t : Tiers} {log : Log Mark}

/-- A thread goes on from wherever it is in no start and no stop. -/
def GoesOn (c : Hybrid) (l me : Nat) (k : Marked Mark α) : Prop :=
  ∀ h log, Watched c.toFront l h log → phase me log = .idle →
    Marked.Safe (Watched c.toFront l) me k h log

theorem GoesOn.look {f : Heap → β} {k : β → Marked Mark α} (hk : ∀ b, GoesOn c l me (k b)) :
    GoesOn c l me (.act (Call.look f) k) :=
  fun h log hc hme ↦ Or.inl ⟨_, _, rfl, hk _ h log hc hme⟩

theorem GoesOn.elsewhere {f : Heap → β × Tiers} {k : β → Marked Mark α}
    (hbeside : ∀ h, Beside h.tiers (f h).2) (hk : ∀ b, GoesOn c l me (k b)) :
    GoesOn c l me (.act (Call.atomically f) k) :=
  fun h log hc hme ↦ Or.inl ⟨_, _, rfl, hk _ _ log (hc.beside (hbeside h)) hme⟩

/-- A thread is alone with the listener. -/
structure Alone (c : Hybrid) (l me : Nat) (h : Heap) (log : Log Mark) : Prop where
  kempt : Kempt c.toFront l h.tiers log
  idle : ∀ th, th ≠ me → phase th log = .idle
  line : ∀ th ∈ h.waiting (.listener l), th = me

namespace Alone

theorem abides (ha : Alone c l me h log) (ht : Abides h.tiers t) :
    Alone c l me { h with tiers := t } log :=
  ⟨ha.kempt.abides ht, ha.idle, ha.line⟩

/-- A thread that is in a start or a stop is alone with the listener. -/
theorem of_busy (hc : Attended c.toFront l s h log) (hme : phase me log ≠ .idle) :
    Alone c l me h log := by
  have hidle : ∀ th, th ≠ me → phase th log = .idle := by
    intro th hne
    by_contra hth
    have hfirst := hc.alone th hth
    rw [hc.alone me hme] at hfirst
    exact hne (Option.some.inj hfirst).symm
  refine ⟨hc.kempt, hidle, fun th hth ↦ ?_⟩
  by_contra hne
  obtain ⟨r, hr⟩ := hc.line th hth
  rw [hidle th hne] at hr
  cases hr

/-- A thread that is alone leaves a mark after which it is idle, and so nobody is in a start or a
stop. -/
theorem phase_cons (ha : Alone c l me h log) {e : Mark} (he : e.phase = .idle) (th : Nat) :
    phase th ((me, e) :: log) = .idle := by
  by_cases hth : th = me
  · rw [hth, phase_cons_self, he]
  · rw [phase_cons_of_ne hth]
    exact ha.idle th hth

/-- A thread that waits for a loop which it has told to end. -/
theorem waits (ha : Alone c l me h log) {h' : Heap} {e : Mark}
    (htended : Tended l s h' ((me, e) :: log)) (habides : Abides h.tiers h'.tiers)
    (he : e.Holds h'.tiers) (hslipped : Slipped ((me, e) :: log) → Slipped log)
    (hhead : (h'.waiting (.slot c.id)).head? = some me)
    (hline : ∀ th ∈ h'.waiting (.listener l), th = me ∧ ∃ r, e.phase = .retiring r) :
    Attended c.toFront l s h' ((me, e) :: log) where
  tended := htended
  kempt := (ha.kempt.abides habides).cons he fun hnot ↦ ha.kempt.honest (hslipped hnot)
  alone th hth := by
    by_cases hne : th = me
    · rw [hne]
      exact hhead
    · rw [phase_cons_of_ne hne] at hth
      exact absurd (ha.idle th hne) hth
  line th hth := by
    obtain ⟨rfl, r, hr⟩ := hline th hth
    exact ⟨r, (phase_cons_self th e log).trans hr⟩

end Alone

theorem dismissed_cancelLoop {r : Nat} (hr : r < t.next) : (t.cancelLoop r).Dismissed r :=
  ⟨hr, by rw [cancelLoop, loop_setLoop, if_pos rfl]⟩

/-- What a thread finds that holds the place of the hybrid tier and comes to the lock of the
listener: nobody else is in a start or a stop, and the lock is free. -/
structure Admitted (c : Hybrid) (l s me : Nat) (h : Heap) (log : Log Mark) : Prop where
  tended : Tended l s h log
  alone : Alone c l me h log
  idle : ∀ th, phase th log = .idle
  first : (h.waiting (.listener l)).head? = some me
  slot : (h.waiting (.slot c.id)).head? = some me
  loop_lt : ∀ r, (h.tiers.listener l).loop = some r → r < h.tiers.next

theorem Attended.admitted (hc : Attended c.toFront l s h log) (hme : phase me log = .idle)
    (hhead : (h.waiting (.slot c.id)).head? = some me) :
    Admitted c l s me (h.enqueue (.listener l) me) log := by
  have hidle := hc.idle_of_head hme hhead
  have hline : (h.enqueue (.listener l) me).waiting (.listener l) = [me] :=
    Heap.waiting_enqueue_of_nil (hc.line_eq_nil hidle)
  refine ⟨hc.tended.enqueue _ me, ⟨?_, fun th _ ↦ hidle th, fun th hth ↦ ?_⟩, hidle, ?_, ?_,
    fun r hr ↦ ?_⟩
  · rw [Heap.tiers_enqueue]
    exact hc.kempt
  · rw [hline] at hth
    exact List.mem_singleton.mp hth
  · rw [hline]
    rfl
  · rw [Heap.waiting_enqueue_of_ne (by simp)]
    exact hhead
  · rw [Heap.tiers_enqueue] at hr ⊢
    exact hc.kempt.recorded.newest_lt (hc.tended.newest_eq r hr)

/-- A thread has done with the listener, and gives both locks back. -/
theorem Alone.givesBack (ha : Alone c l me h log) {h' : Heap} {log' : Log Mark}
    (htended : Tended l s h' log') (hkempt : Kempt c.toFront l h'.tiers log')
    (hidle : ∀ th, phase th log' = .idle)
    (hline : h'.waiting (.listener l) = h.waiting (.listener l)) :
    Watched c.toFront l ((h'.leave (.listener l) me).leave (.slot c.id) me) log' := by
  refine Or.inr ⟨s, ?_⟩
  refine (Attended.of_idle (htended.leave (hidle me) _) hkempt hidle fun th hth ↦ ?_).leave
    (hidle me) _
  obtain ⟨hmem, hne⟩ := Heap.mem_waiting_leave hth
  rw [hline] at hmem
  exact hne rfl (ha.line th hmem)

/-- The second half of a start. -/
theorem safe_subscribe {k : Answer Unit → Marked Mark α} (hk : ∀ a, GoesOn c l me (k a))
    (hv : Vacant l s me h.tiers log) (ha : Alone c l me h log) :
    Marked.Safe (Watched c.toFront l) me
      (notedSubscribe tending l fun a ↦ .release (.slot c.id) (k a)) h log := by
  refine Or.inl ⟨_, (), rfl, Or.inl ⟨_, _, rfl, ?_⟩⟩
  have hstarting : Vacant l s me { h with tiers := h.tiers.setStage l .starting }.tiers log :=
    hv.setStage .starting
  have hwithin := ha.abides (abides_setStage h.tiers l .starting)
  have hkept : (subscribe (.store s) ((h.tiers.setStage l .starting).listener l).channel).AtOnce me
      { h with tiers := h.tiers.setStage l .starting } (fun _ h' ↦ Alone c l me h' log)
      fun _ ↦ True := by
    change (Call.onStore s fun _ ↦ Store.subscribe _).AtOnce me _ _ _
    exact Call.AtOnce.onStore (fun _ _ ↦ hwithin.abides (abides_setStore _ _ _))
      (fun _ _ ↦ hwithin.abides (abides_setStore _ _ _)) fun _ ↦ trivial
  rw [← hstarting.wired.source] at hkept
  refine Marked.Safe.of_atOnce (hstarting.subscribe.and hkept) (fun a h' ha ↦ ?_)
    fun _ hfail ↦ hfail.1.elim
  obtain ⟨⟨hv', hsubscribed⟩, ha'⟩ := ha
  cases a with
  | ok i =>
    obtain ⟨hi, hchannel⟩ := hsubscribed i rfl
    have hslipped : ¬ Slipped ((me, .started h'.tiers.next) :: log) := by
      rintro ⟨th, r, hth⟩
      by_cases hne : th = me
      · exact hv'.not_draining r (hne ▸ hth)
      · rw [ha'.idle th hne] at hth
        cases hth
    have hkempt : Kempt c.toFront l (h'.tiers.startLoop l i)
        ((me, .started h'.tiers.next) :: log) :=
      (ha'.kempt.abides (abides_startLoop _ l i)).cons (Nat.lt_succ_self h'.tiers.next) hslipped
    have hidle := ha'.phase_cons (e := .started h'.tiers.next) rfl
    exact Or.inl ⟨_, (), rfl, hk _ _ _
      (ha'.givesBack (hv'.started hi hchannel rfl) hkempt hidle rfl) (hidle me)⟩
  | error f =>
    have hkempt : Kempt c.toFront l (h'.tiers.setStage l .stopped) ((me, .ended) :: log) :=
      (ha'.kempt.abides (abides_setStage _ l _)).cons trivial ha'.kempt.honest
    have hidle := ha'.phase_cons (e := .ended) rfl
    exact Or.inl ⟨_, (), rfl, hk _ _ _ (ha'.givesBack (hv'.failed rfl) hkempt hidle rfl) (hidle me)⟩

/-- What a start does while it holds the place of the hybrid tier. -/
theorem safe_start {k : Answer Unit → Marked Mark α} (hk : ∀ a, GoesOn c l me (k a))
    (hc : Attended c.toFront l s h log) (hme : phase me log = .idle)
    (hhead : (h.waiting (.slot c.id)).head? = some me) :
    Marked.Safe (Watched c.toFront l) me
      (notedStart tending l fun a ↦ .release (.slot c.id) (k a)).prompt h log := by
  have hadmitted := hc.admitted hme hhead
  refine Marked.Safe.prompt hadmitted.first ?_
  generalize h.enqueue (.listener l) me = h₁ at hadmitted
  obtain ⟨hc₁, ha, hidle, hfirst, hslot, hlt⟩ := hadmitted
  refine Or.inl ⟨_, _, rfl, ?_⟩
  dsimp only
  cases isServed h₁ l with
  | true => exact hk _ _ _ (ha.givesBack hc₁ ha.kempt hidle rfl) hme
  | false =>
    refine Or.inl ⟨_, _, rfl, ?_⟩
    dsimp only [takeLoop]
    cases hloop : (h₁.tiers.listener l).loop with
    | none =>
      exact safe_subscribe hk (hc₁.vacant hme hfirst hloop) (ha.abides (abides_takeLoop _ l))
    | some r =>
      have habides : Abides h₁.tiers ((h₁.tiers.takeLoop l).2.cancelLoop r) :=
        (abides_takeLoop _ l).trans (abides_cancelLoop _ r)
      refine Or.inl ⟨_, (), rfl, Or.inr ⟨s, ?_⟩, fun h₂ log₂ hc₂ hmarks ↦ ⟨fun hended ↦ ?_, ?_⟩⟩
      · exact ha.waits (hc₁.retire hme hfirst hloop) habides (dismissed_cancelLoop (hlt r hloop)) id
          hslot fun th hth ↦ ⟨ha.line th hth, r, rfl⟩
      · have hme₂ : phase me log₂ = .retiring r :=
          (phase_congr hmarks).trans (phase_cons_self me _ log)
        have hbusy : phase me log₂ ≠ .idle := by simp [hme₂]
        obtain ⟨s₂, hc₂⟩ := hc₂.attended hbusy
        exact safe_subscribe hk (hc₂.tended.vacant_of_ended hme₂ hended) (.of_busy hc₂ hbusy)
      · exact fun hdue ↦ absurd hdue Bool.false_ne_true

/-- A stop has waited long enough. -/
private theorem safe_drained {k : Unit → Marked Mark α} (hk : ∀ a, GoesOn c l me (k a))
    (hc : Watched c.toFront l h log) {r : Nat} (hme : phase me log = .draining r)
    (habides : Abides h.tiers t) (hwired : ∀ s, Wired l s h.tiers → Wired l s t)
    (hlistener : t.listener l = h.tiers.listener l)
    (hreceiver : ∀ i, t.receiver? l i = if i = r then none else h.tiers.receiver? l i) :
    Marked.Safe (Watched c.toFront l) me (.mark (fun _ ↦ .ended) (.release (.slot c.id) (k ())))
      { h with tiers := t.setStage l .stopped } log := by
  have hbusy : phase me log ≠ .idle := by simp [hme]
  obtain ⟨s, hc⟩ := hc.attended hbusy
  have ha := Alone.of_busy hc hbusy
  have hidle := ha.phase_cons (e := .ended) rfl
  have hkempt : Kempt c.toFront l (t.setStage l .stopped) ((me, .ended) :: log) :=
    (ha.kempt.abides (habides.trans (abides_setStage _ l _))).cons trivial ha.kempt.honest
  refine hk _ _ _ (Or.inr ⟨s, Attended.leave (.of_idle (hc.tended.drained hme (hwired s
    hc.tended.wired) hlistener hreceiver) hkempt hidle fun th hth ↦ ?_) (hidle me) _⟩) (hidle me)
  -- nobody waits for the lock of the listener: only this thread could, and it has given it back
  obtain ⟨i, hi⟩ := hc.line th hth
  rw [ha.line th hth, hme] at hi
  cases hi

/-- What a stop does while it holds the place of the hybrid tier. -/
theorem safe_stop {k : Unit → Marked Mark α} (hk : ∀ a, GoesOn c l me (k a))
    (hc : Attended c.toFront l s h log) (hme : phase me log = .idle)
    (hhead : (h.waiting (.slot c.id)).head? = some me) :
    Marked.Safe (Watched c.toFront l) me
      (notedStop tending l fun a ↦ .release (.slot c.id) (k a)).prompt h log := by
  have hadmitted := hc.admitted hme hhead
  refine Marked.Safe.prompt hadmitted.first ?_
  generalize h.enqueue (.listener l) me = h₁ at hadmitted
  obtain ⟨hc₁, ha, hidle, hfirst, hslot, hlt⟩ := hadmitted
  refine Or.inl ⟨_, _, rfl, ?_⟩
  dsimp only [takeLoop, Marked.Safe]
  cases hloop : (h₁.tiers.listener l).loop with
  | none =>
    have htaken : Aside l s h₁.tiers (h₁.tiers.takeLoop l).2 :=
      aside_setListener _ (fun _ ↦ ⟨rfl, rfl, rfl, hloop.symm⟩)
        fun r hr ↦ absurd hr.symm (Option.some_ne_none r)
    exact hk _ _ _ (ha.givesBack (hc₁.beside htaken) (ha.kempt.abides (abides_takeLoop _ l)) hidle
      rfl) hme
  | some r =>
    have habides : Abides h₁.tiers (((h₁.tiers.takeLoop l).2.setStage l .stopping).cancelLoop r) :=
      ((abides_takeLoop _ l).trans (abides_setStage _ l _)).trans (abides_cancelLoop _ r)
    refine Or.inl ⟨_, (), rfl, Or.inl ⟨_, _, rfl, Or.inr ⟨s, ?_⟩, fun h₂ log₂ hc₂ hmarks ↦ ?_⟩⟩
    · refine ha.waits (hc₁.drain hme hloop rfl) habides (dismissed_cancelLoop (hlt r hloop)) id ?_
        fun th hth ↦ ?_
      · refine (congrArg List.head? (Heap.waiting_leave_of_ne ?_)).trans hslot
        simp
      · obtain ⟨hmem, hne⟩ := Heap.mem_waiting_leave hth
        exact absurd (ha.line th hmem) (hne rfl)
    · have hme₂ : phase me log₂ = .draining r :=
        (phase_congr hmarks).trans (phase_cons_self me _ log)
      refine ⟨fun hended ↦ Or.inl ⟨_, (), rfl, ?_⟩, fun _ ↦ Or.inl ⟨_, (), rfl, ?_⟩⟩
      · refine safe_drained (t := h₂.tiers) hk hc₂ hme₂ (.refl _) (fun _ hwired ↦ hwired) rfl
          fun i ↦ ?_
        split_ifs with hi
        · rw [hi]
          exact receiver?_of_ended hended
        · rfl
      · exact safe_drained hk hc₂ hme₂ (abides_closeLoop _ r) (fun _ hwired ↦ hwired.closeLoop r)
          (listener_closeLoop _ r l) (receiver?_closeLoop _ r)

/-- What is done while nobody else uses the listener. -/
theorem safe_locked {k : Option Nat → Marked Mark α}
    (hbare : ∀ h, Bare c.toFront l h → (h.waiting (.slot c.id)).head? = some me →
      Marked.Safe (Watched c.toFront l) me (k none) h [])
    (hk : ∀ s h log, Attended c.toFront l s h log → phase me log = .idle →
      (h.waiting (.slot c.id)).head? = some me →
      Marked.Safe (Watched c.toFront l) me (k (some l)) h log) : GoesOn c l me (locked c k) := by
  refine fun h log hc hme ↦ ⟨hc, fun h' log' hc' hmarks ↦ ⟨hc'.enqueue me, fun hhead ↦ ?_⟩⟩
  refine Or.inl ⟨_, _, rfl, ?_⟩
  rcases hc'.enqueue me with ⟨hb, rfl⟩ | ⟨s, hc₁⟩
  · dsimp only
    rw [hb.slot_eq]
    exact hbare _ hb hhead
  · dsimp only
    rw [hc₁.kempt.slot_eq]
    exact hk s _ _ hc₁ ((phase_congr hmarks).trans hme) hhead

theorem safe_listen {k : Answer Unit → Marked Mark α} (hk : ∀ a, GoesOn c l me (k a)) (s : Nat) :
    GoesOn c l me (listen c (.store s) k) := by
  refine safe_locked (fun h hb hhead ↦ ?_) fun s h log hc hme hhead ↦ ?_
  · have hmade := hb.attended (x := .idle c.near.cache (.store s) c.settings.channel
      c.settings.patience) rfl rfl rfl rfl
    obtain rfl := hb.next_eq
    exact Or.inl ⟨_, _, rfl, safe_start hk hmade rfl hhead⟩
  · exact Or.inl ⟨_, _, rfl, safe_start hk hc hme hhead⟩

theorem safe_cease {k : Unit → Marked Mark α} (hk : ∀ a, GoesOn c l me (k a)) :
    GoesOn c l me (cease c k) := by
  refine safe_locked (fun h hb _ ↦ ?_) fun s h log hc hme hhead ↦ safe_stop hk hc hme hhead
  exact hk _ _ _ (Watched.leave (Or.inl ⟨hb, rfl⟩) rfl _) rfl

theorem safe_finish {front : Front} {x : StoreHandle} {k : Answer Unit → Marked Mark α}
    (hk : ∀ a, GoesOn (Hybrid.layered front x) l me (k a)) :
    GoesOn (Hybrid.layered front x) l me (finish (Hybrid.layered front x) k) := by
  refine safe_cease fun _ h log hc hme ↦ Or.inl ⟨_, (), rfl, Or.inl ⟨_, .ok (), rfl, ?_⟩⟩
  exact hk _ _ log (hc.beside (beside_setLocal h.tiers _ _)) hme

theorem safe_show {f : Nat → Heap → β} {b : β} {k : β → Marked Mark α}
    (hk : ∀ a, GoesOn c l me (k a)) : GoesOn c l me (Hybrid.notedShow c f b k) := by
  refine safe_locked (fun h hb _ ↦ ?_) fun s h log hc hme hhead ↦ Or.inl ⟨_, _, rfl, ?_⟩
  · exact hk _ _ _ (Watched.leave (Or.inl ⟨hb, rfl⟩) rfl _) rfl
  · exact hk _ _ _ (Or.inr ⟨s, hc.leave hme _⟩) hme

end Safe

end Invalidator

end TwoTier
