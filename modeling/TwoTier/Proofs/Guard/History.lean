import Mathlib.Tactic.Common
import TwoTier.Engine.Call

/-!
# The history of the guards

What is seen of the guards is that a call reaches the table for a key, that a fill ends, and that a
call goes on with the outcome of its fill. A history lists these events, the latest first, and the
fill that a key has in flight can be read from it (`Guard.flightOf`).

`Guard.Legal` is the contract of the guards. A call that finds a fill in flight waits for this one,
and one that finds none waits for a fill that is new; only a fill in flight ends; and a call goes on
with what the fill of its own last event has ended with, when no key has this fill in flight any
more. In a legal history a fill belongs to one key of one guard (`Guard.Legal.flight_unique`), it
stays in flight until it ends (`Guard.Legal.flightOf_append`), and no call waits for it that comes
after its end (`Guard.Legal.not_called_after_ended`).
-/

set_option autoImplicit false
set_option relaxedAutoImplicit false

namespace TwoTier

namespace Guard

/-- What is seen of the guards. -/
inductive Event where
  /-- A call of a thread reaches the table for a key, and waits for a fill from now on. -/
  | called (thread guard : Nat) (key : String) (fill : Nat)
  /-- A fill ends. -/
  | ended (fill guard : Nat) (key : String) (conclusion : Conclusion (Answer String))
  /-- A call of a thread goes on with the outcome of a fill. -/
  | returned (thread fill : Nat) (outcome : Answer String)

/-- The fill that an event is about. -/
def Event.fill : Event → Nat
  | called _ _ _ i => i
  | ended i _ _ _ => i
  | returned _ i _ => i

/-- The thread whose call an event is about. -/
def Event.thread? : Event → Option Nat
  | called th _ _ _ => some th
  | ended _ _ _ _ => none
  | returned th _ _ => some th

/-- The fill that a key has in flight after a history. -/
def flightOf (g : Nat) (key : String) : List Event → Option Nat
  | [] => none
  | .called _ g' key' i :: es => if g' = g ∧ key' = key then some i else flightOf g key es
  | .ended _ g' key' _ :: es => if g' = g ∧ key' = key then none else flightOf g key es
  | .returned _ _ _ :: es => flightOf g key es

/-- The last event of a thread. -/
def lastOf (th : Nat) (es : List Event) : Option Event := es.find? fun e ↦ e.thread? = some th

/-- Whether an event may come after a history. -/
def Event.Allowed : Event → List Event → Prop
  | called _ g key i, es =>
    flightOf g key es = some i ∨ (flightOf g key es = none ∧ ∀ e ∈ es, e.fill ≠ i)
  | ended i g key _, es => flightOf g key es = some i
  | returned th i o, es =>
    (∃ g key c, lastOf th es = some (called th g key i) ∧ ended i g key c ∈ es ∧ o = c.outcome) ∧
      ∀ g key, flightOf g key es ≠ some i

/-- A history in which each event may come after those before it. -/
def Legal : List Event → Prop
  | [] => True
  | e :: es => e.Allowed es ∧ Legal es

theorem lastOf_cons (th : Nat) (e : Event) (es : List Event) :
    lastOf th (e :: es) = if e.thread? = some th then some e else lastOf th es := by
  unfold lastOf
  rw [List.find?_cons]
  by_cases h : e.thread? = some th <;> simp [h]

theorem mem_of_lastOf {th : Nat} {e : Event} {es : List Event} (h : lastOf th es = some e) :
    e ∈ es :=
  List.mem_of_find?_eq_some h

/-- What is in flight was called for. -/
theorem exists_called_of_flightOf {g : Nat} {key : String} {i : Nat} {es : List Event}
    (h : flightOf g key es = some i) : ∃ th, .called th g key i ∈ es := by
  induction es with
  | nil => exact absurd h (Option.some_ne_none i).symm
  | cons e es ih =>
    have hstep : flightOf g key es = some i → ∃ th, .called th g key i ∈ e :: es := by
      intro hes
      obtain ⟨th, hth⟩ := ih hes
      exact ⟨th, List.mem_cons_of_mem _ hth⟩
    cases e with
    | called th g' key' j =>
      rw [flightOf] at h
      split_ifs at h with hkey
      · obtain ⟨rfl, rfl⟩ := hkey
        obtain rfl := Option.some.inj h
        exact ⟨th, List.mem_cons_self⟩
      · exact hstep h
    | ended j g' key' c =>
      rw [flightOf] at h
      split_ifs at h with hkey
      exact hstep h
    | returned th j o => exact hstep h

/-- A fill is in flight for one key of one guard. -/
theorem Legal.flight_unique {es : List Event} (hes : Legal es) {g g' : Nat} {key key' : String}
    {i : Nat} (h : flightOf g key es = some i) (h' : flightOf g' key' es = some i) :
    g = g' ∧ key = key' := by
  induction es generalizing g g' key key' i with
  | nil => exact absurd h (Option.some_ne_none i).symm
  | cons e es ih =>
    obtain ⟨hallowed, hes⟩ := hes
    cases e with
    | called th a k j =>
      -- one that was called for now had been in flight for this key, or is new
      have hother : ∀ b l, flightOf b l es = some j → a = b ∧ k = l := by
        intro b l hb
        rcases hallowed with hflight | ⟨-, hnew⟩
        · exact ih hes hflight hb
        · obtain ⟨th', hth'⟩ := exists_called_of_flightOf hb
          exact absurd rfl (hnew _ hth')
      rw [flightOf] at h h'
      split_ifs at h h' with hk hk' hk'
      · exact ⟨hk.1.symm.trans hk'.1, hk.2.symm.trans hk'.2⟩
      · obtain rfl := Option.some.inj h
        obtain ⟨rfl, rfl⟩ := hk
        exact hother _ _ h'
      · obtain rfl := Option.some.inj h'
        obtain ⟨rfl, rfl⟩ := hk'
        obtain ⟨ha, hk⟩ := hother _ _ h
        exact ⟨ha.symm, hk.symm⟩
      · exact ih hes h h'
    | ended j a k c =>
      rw [flightOf] at h h'
      split_ifs at h h'
      exact ih hes h h'
    | returned th j o => exact ih hes h h'

/-- What is in flight has not ended. -/
theorem Legal.not_ended_of_flight {es : List Event} (hes : Legal es) {g : Nat} {key : String}
    {i : Nat} (h : flightOf g key es = some i) (g' : Nat) (key' : String)
    (c : Conclusion (Answer String)) : .ended i g' key' c ∉ es := by
  induction es generalizing g key with
  | nil => exact List.not_mem_nil
  | cons e es ih =>
    obtain ⟨hallowed, hes'⟩ := hes
    intro hmem
    cases e with
    | called th a k j =>
      have hmem : Event.ended i g' key' c ∈ es := by simpa using hmem
      rw [flightOf] at h
      split_ifs at h with hk
      · obtain rfl := Option.some.inj h
        rcases hallowed with hflight | ⟨-, hnew⟩
        · exact ih hes' hflight hmem
        · exact absurd rfl (hnew _ hmem)
      · exact ih hes' h hmem
    | ended j a k d =>
      rw [flightOf] at h
      split_ifs at h with hk
      rcases List.mem_cons.mp hmem with heq | hmem
      · obtain ⟨rfl, -, -, -⟩ := Event.ended.inj heq
        exact hk (hes'.flight_unique hallowed h)
      · exact ih hes' h hmem
    | returned th j o =>
      have hmem : Event.ended i g' key' c ∈ es := by simpa using hmem
      exact ih hes' h hmem

theorem Legal.of_append {newer older : List Event} (h : Legal (newer ++ older)) : Legal older := by
  induction newer with
  | nil => exact h
  | cons e newer ih => exact ih h.2

/-- No call waits for a fill that had ended before: a later call for its key has a fill of its
own. -/
theorem Legal.not_called_after_ended {newer older : List Event} {i g : Nat} {key : String}
    {c : Conclusion (Answer String)} (h : Legal (newer ++ .ended i g key c :: older))
    (th g' : Nat) (key' : String) : .called th g' key' i ∉ newer := by
  induction newer with
  | nil => exact List.not_mem_nil
  | cons e newer ih =>
    intro hmem
    rcases List.mem_cons.mp hmem with rfl | hmem
    · have hended : Event.ended i g key c ∈ newer ++ .ended i g key c :: older := by simp
      rcases h.1 with hflight | ⟨-, hnew⟩
      · exact h.2.not_ended_of_flight hflight g key c hended
      · exact absurd rfl (hnew _ hended)
    · exact ih h.2 hmem

/-- What is in flight stays so until it ends. -/
theorem Legal.flightOf_append {new es : List Event} (h : Legal (new ++ es)) {g : Nat}
    {key : String} {i : Nat} (hflight : flightOf g key es = some i) :
    flightOf g key (new ++ es) = some i ∨ ∃ c, .ended i g key c ∈ new := by
  induction new with
  | nil => exact Or.inl hflight
  | cons e new ih =>
    rcases ih h.2 with hnow | ⟨c, hc⟩
    · have hallowed : e.Allowed (new ++ es) := h.1
      cases e with
      | called th a k j =>
        left
        rw [List.cons_append, flightOf]
        split_ifs with hk
        · obtain ⟨rfl, rfl⟩ := hk
          rcases hallowed with hold | ⟨hnone, -⟩
          · rw [← hold, hnow]
          · rw [hnow] at hnone
            exact absurd hnone (Option.some_ne_none i)
        · exact hnow
      | ended j a k c =>
        rw [List.cons_append, flightOf]
        split_ifs with hk
        · right
          obtain ⟨rfl, rfl⟩ := hk
          have hj : some j = some i := hallowed.symm.trans hnow
          obtain rfl := Option.some.inj hj
          exact ⟨c, List.mem_cons_self⟩
        · exact Or.inl hnow
      | returned th j o => exact Or.inl hnow
    · exact Or.inr ⟨c, List.mem_cons_of_mem _ hc⟩

end Guard

end TwoTier
