import Mathlib.Data.List.Permutation
import TwoTier.Proofs.Listener.Honesty
import TwoTier.Proofs.Listener.Succession

/-!
# What a listener has received

Tasks start, stop and drop a listener of a store, publish payloads, drop its subscriptions and use
the caches (`Notice.Deals`), and are cancelled at times. Of the history of all this, and of what the
receive loops have done in between, it is read off at every moment what the listener has counted,
what its loops have taken (`Notice.InTurn`), and what the caches show.

A loop takes what was sent to its subscription one by one and in order, or is told how much of it
was lost. It has no last word, however: a loop that was told to end, by a stop, by a start or
because the listener was dropped, leaves what it has not read by then (`Notice.unread_of_stop`).
-/

set_option autoImplicit false
set_option relaxedAutoImplicit false

namespace TwoTier

namespace Notice

open Tiers Listener

/-- A listener of a store that has not been started, and what it finds. -/
def Site.at (t : Tiers) (l s : Nat) : Site where
  listener := l
  store := s
  near := (t.listener l).localTier
  channel := (t.listener l).channel
  first := (t.store s).nextSubscriber
  shown := Caches.of (t.listener l).localTier s t

/-- A listener has counted nothing. -/
structure Uncounted (x : Listener) : Prop where
  received : x.received = 0
  applied : x.applied = 0
  ignored : x.ignored = 0
  failed : x.failed = 0

/-- How the receive loops of a listener have taken what was sent to their subscriptions. -/
structure InTurn (s : Nat) (channel : String) (es : List Event) : Prop where
  /-- Every subscription is one to the channel of the listener. -/
  channel : ∀ i channel', .subscribed i channel' ∈ es → channel' = channel
  /-- A first part of what was sent is accounted for: it was taken in order, or its loss was
  reported. -/
  read : ∀ i, ∃ read rest, sent s i es = read ++ rest ∧ Covers (taken i es) read
  /-- What is taken is what comes next. -/
  next : ∀ newer older i d, es = newer ++ .took i d :: older →
    d = nextOf (sent s i older) (reach (taken i older))
  /-- Nothing is taken by a loop that was told to end. -/
  heedful : ∀ newer older i d, es = newer ++ .took i d :: older → .told i ∉ older
  /-- Nothing is taken from a subscription when a later one was made. -/
  latest : ∀ newer later before i j d channel' channel'',
    es = newer ++ .took i d :: (later ++ .subscribed j channel' :: before) →
      .subscribed i channel'' ∉ before

/-- The first entries of the accounts. -/
theorem ledger_of_unstarted {l s : Nat} {t : Tiers} (hnew : Unstarted l s t)
    (hzero : Uncounted (t.listener l)) : Ledger (Site.at t l s) t [] where
  subscribed :=
    { issued := hnew.issued
      first_le := Nat.le_refl _
      distinct u hu _ _ hfirst := absurd (hnew.issued u hu) (Nat.not_lt.mpr hfirst)
      fed u hu hfirst := absurd (hnew.issued u hu) (Nat.not_lt.mpr hfirst)
      gone _ _ _ := ⟨rfl, ⟨[], [], rfl, .nil⟩, fun _ ↦ .nil⟩
      strange _ _ := ⟨rfl, rfl, rfl⟩
      law newer older i d heq := by cases newer <;> cases heq }
  looped :=
    { source := hnew.source
      channel := rfl
      others i _ := hnew.loop i
      anchored r hr := by
        rw [hnew.loop] at hr
        cases hr
      live r y hy := by
        rw [hnew.loops] at hy
        cases hy
      apart := by
        refine ⟨fun r y hy ↦ ?_, fun r r' y y' hy ↦ ?_⟩ <;>
          rw [Tracked, hnew.loops] at hy <;> cases hy.1
      served u hu hfirst := absurd (hnew.issued u hu) (Nat.not_lt.mpr hfirst)
      told_lt _ hi := absurd hi List.not_mem_nil
      asked _ _ hi := absurd hi List.not_mem_nil
      heedful newer older i d heq := by cases newer <;> cases heq }
  counted := by
    refine ⟨?_, hzero.applied, hzero.ignored, hzero.failed⟩
    change (t.listener l).received =
      (t.listener l).applied + (t.listener l).ignored + (t.listener l).failed
    rw [hzero.received, hzero.applied, hzero.ignored, hzero.failed]
  local_eq := rfl
  caches := rfl

/-- Where nothing can happen, all that was sent has been accounted for, unless the loop was told to
end. -/
theorem Ledger.covers_of_idle {a : Site} {ρ : Type} {w : World ρ} {es : List Event}
    (h : Ledger a w.heap.tiers es) (hidle : w.candidates = []) {i : Nat}
    (huntold : Untold a.store i es) : Covers (taken i es) (sent a.store i es) := by
  by_cases hfirst : i < a.first
  · obtain ⟨-, hsent, htaken⟩ := h.subscribed.strange i (Or.inl hfirst)
    rw [hsent, htaken]
    exact .nil
  have hfirst := Nat.le_of_not_lt hfirst
  by_cases hpresent : ∃ u ∈ (w.heap.tiers.store a.store).subscribers, u.id = i
  · obtain ⟨u, hu, rfl⟩ := hpresent
    obtain ⟨r, y, hy, hended, hserves⟩ := h.looped.served u hu hfirst
    have hready := World.loopReady_of_idle hidle ((Dict.mem_iff_exists _ r).mpr ⟨y, hy⟩)
    rw [loopReady, loop_of_getElem? hy, (h.looped.live r y hy hended).2.2.1, hserves] at hready
    simp only [hended, Bool.not_false, Bool.true_and, Bool.or_eq_false_iff,
      decide_eq_false_iff_not, not_not] at hready
    exact h.subscribed.covers hfirst (Or.inl hready.2) huntold
  · exact (h.subscribed.gone i hfirst fun u hu hid ↦ hpresent ⟨u, hu, hid⟩).covers huntold

theorem inTurn_of_ledger {a : Site} {t : Tiers} {es : List Event} (h : Ledger a t es)
    (hordered : Ordered es) : InTurn a.store a.channel es where
  channel := h.looped.asked
  read := h.subscribed.read
  next := h.subscribed.law
  heedful := h.looped.heedful
  latest newer later before i j d channel' channel'' heq hi := by
    have hold : Ordered (newer ++ .took i d :: later ++ .subscribed j channel' :: before) := by
      rw [List.append_assoc, List.cons_append, ← heq]
      exact hordered
    refine h.looped.heedful newer _ i d heq (List.mem_append_right _ (List.mem_cons_of_mem _ ?_))
    exact hold.told hi

/-- The calls of those who have to do with a listener are the operations themselves
(`Notice.Links`), and whatever is done or cancelled, the history of a run goes on with it. At every
moment of every run of them: a listener has received what it has applied, ignored and failed to
read, which are the payloads taken that name a key, those that name none, and the losses reported.
Its loops have taken in turn what was sent to their subscriptions, and where nothing can happen they
have taken all of it, unless they were told to end. What the caches show is what they showed,
without the keys that were taken, and with what others have done to them. -/
theorem reception_accounted {l s now : Nat} {tiers : Tiers} {ρ : Type} {p : Play Event ρ}
    {es : List Event}
    (hnew : Unstarted l s tiers) (hzero : Uncounted (tiers.listener l))
    (hp : Play.Chronicle (dealing (Site.at tiers l s) ρ) heard (.opening now tiers [.listener l]) p
      es) :
    let x := p.world.heap.tiers.listener l
    let near := (tiers.listener l).localTier
    Links l s ∧
    (∀ m, p.Allowed (dealing (Site.at tiers l s) ρ) m →
      (∀ i, m = .abort i → ∃ t ∈ p.world.tasks, t.id = i) →
        ∃ new, Play.Chronicle (dealing (Site.at tiers l s) ρ) heard
          (.opening now tiers [.listener l]) (p.apply m) (new ++ es)) ∧
    (x.received = x.applied + x.ignored + x.failed ∧ x.applied = es.countP Event.applies ∧
      x.ignored = es.countP Event.ignores ∧ x.failed = es.countP Event.fails) ∧
    InTurn s (tiers.listener l).channel es ∧
    (p.world.candidates = [] → ∀ i, Untold s i es → Covers (taken i es) (sent s i es)) ∧
    Caches.of near s p.world.heap.tiers = replay (Caches.of near s tiers) es := by
  intro x near
  have hledger : Ledger (Site.at tiers l s) p.world.heap.tiers es :=
    hp.inv (recounts_dealing (Site.at tiers l s) ρ) (ledger_of_unstarted hnew hzero)
  have hordered : Ordered es := ordered_of_chronicle (a := Site.at tiers l s) hnew.source hp
  obtain ⟨hreceived, happlied, hignored, hfailed⟩ := hledger.counted
  exact ⟨links l s, fun m hm htask ↦ hp.goes_on hm htask,
    ⟨hreceived, happlied, hignored, hfailed⟩, inTurn_of_ledger hledger hordered,
    fun hidle i huntold ↦ hledger.covers_of_idle hidle huntold, hledger.caches⟩

/-- A listener is started and hears of a key, and of the empty text, which is none. -/
theorem reception_accounted_of_heard :
    let tiers := Tiers.empty.setListener 0 (.idle 0 (.store 0) "c" (Clock.secs 1))
    let first : Play Event Unit := .opening 0 tiers [.listener 0]
    let code : Marked Event Unit := notedStart entries 0 fun _ ↦
      notedPublish 0 "c" ["k", ""] fun _ ↦ .done ()
    let spawned := first.apply (.spawn [] code)
    let started := spawned.apply (.run (.task 0))
    let last := (started.apply (.run (.loop 0))).apply (.run (.loop 0))
    let es : List Event := [.took 0 (.payload ""), .took 0 (.payload "k"), .published "c" "",
      .published "c" "k", .subscribed 0 "c"]
    let x := last.world.heap.tiers.listener 0
    Play.Chronicle (dealing (Site.at tiers 0 0) Unit) heard first last es ∧
      last.world.candidates = [] ∧ Untold 0 0 es ∧
      (x.received = 2 ∧ x.applied = 1 ∧ x.ignored = 1) ∧
      x.received = x.applied + x.ignored + x.failed ∧ InTurn 0 "c" es ∧
      Covers [.payload "", .payload "k"] ["k", ""] := by
  intro tiers first code spawned started last es x
  have hcode : Deals (Site.at tiers 0 0) False code := .start fun _ ↦ .publish fun _ ↦ .done ()
  have hspawned : Play.Chronicle (dealing (Site.at tiers 0 0) Unit) heard first spawned [] :=
    Play.Chronicle.start.spawn hcode []
  have hlog : started.log = [(0, .published "c" ""), (0, .published "c" "k"),
      (0, .subscribed 0 "c")] ++ spawned.log := by cbv
  have hstarted := hspawned.task_of_log ⟨0, by decide⟩ hlog
  have hheard : heard started.world.heap.tiers 0 = [.took 0 (.payload "k")] := by cbv
  have hheard' : heard (started.apply (.run (.loop 0))).world.heap.tiers 0 =
      [.took 0 (.payload "")] := by cbv
  have hlast : Play.Chronicle (dealing (Site.at tiers 0 0) Unit) heard first last es :=
    (hstarted.loop_of_heard ⟨0, by decide⟩ hheard).loop_of_heard ⟨2, by decide⟩ hheard'
  have hidle : last.world.candidates = [] := by decide
  have huntold : Untold 0 0 es := by simp [Untold, es]
  have hnew : Unstarted 0 0 tiers := by
    refine ⟨rfl, rfl, fun i ↦ ?_, fun _ ↦ rfl, fun u hu ↦ absurd hu List.not_mem_nil⟩
    rw [listener_setListener]
    split_ifs <;> rfl
  obtain ⟨-, -, ⟨hsum, -⟩, hturn, hcovers, -⟩ :=
    reception_accounted hnew ⟨rfl, rfl, rfl, rfl⟩ hlast
  exact ⟨hlast, hidle, huntold, by decide, hsum, hturn, hcovers hidle 0 huntold⟩

/-- A listener is started, a payload is published, and the listener is stopped before its loop gets
to read that. When nothing can happen any more, the payload was published while the listener was
subscribed, and no loss was reported, but it was not taken, and nothing was counted. -/
theorem unread_of_stop :
    let first : World (Answer Unit) :=
      .opening 0 (Tiers.empty.setListener 0 (.idle 0 (.store 0) "c" (Clock.secs 1)))
    let moves : List (Move (Answer Unit)) :=
      [.spawn [] (start 0), .run (.task 0),
        .spawn [] (Call.onStore 0 fun _ ↦ Store.publish "c" "k"), .run (.task 1)]
    let later : List (Move (Answer Unit)) :=
      [.spawn [] ((stop 0).bind fun _ ↦ .done (.ok ())), .run (.task 2), .run (.loop 0),
        .run (.task 2)]
    let published := moves.foldl World.apply first
    let last := later.foldl World.apply published
    let x := last.heap.tiers.listener 0
    first.able (moves ++ later) = true ∧
      (published.heap.tiers.store 0).subscribers = [⟨0, "c", true, ["k"], 0⟩] ∧
      (published.heap.tiers.listener 0).state = .running ∧
      last.candidates = [] ∧ (x.state = .stopped ∧ x.received = 0 ∧ x.failed = 0) ∧
      (last.heap.tiers.store 0).subscribers = [] := by
  decide +kernel

end Notice

end TwoTier
