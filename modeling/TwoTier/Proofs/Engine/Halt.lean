import Mathlib.Tactic.Common
import TwoTier.Engine.World

/-!
# A step of a call, in two parts

A step of a call runs up to its next wait, and where this wait is for a fill, the table of the
guard is asked for one. `Call.halt` is the first part and `Call.enter` the second; a step is one
after the other (`Call.exec_eq_enter`). The first part leaves the guards, the clock and the numbers
of threads as they are (`Call.halt_kept`), so that all that can happen at a guard in one step is
what the second part says: a fill in flight is joined, or one is started.
-/

set_option autoImplicit false
set_option relaxedAutoImplicit false

namespace TwoTier

namespace Call

variable {α β : Type}

/-- Runs the call of thread `me` up to the first wait that is not over, where the wait for a fill
has not begun yet. -/
def halt (me : Nat) {α : Type} : Call α → Heap → Heap × Call α
  | done a, h => (h, done a)
  | crash, h => (h, crash)
  | read k, h => (k h).halt me h
  | write t k, h => k.halt me { h with tiers := t }
  | pause k, h => (h, pause k)
  | sleep wake k, h => if due wake h.now then k.halt me h else (h, sleep wake k)
  | pop s keys deadline seen k, h =>
    let store := h.tiers.store s
    if seen = some store.pushes then
      if due deadline h.now then (k (.ok none)).halt me h else (h, pop s keys deadline seen k)
    else
      let tried := store.tryPop h.now keys
      let h' := { h with tiers := h.tiers.setStore s tried.2 }
      match tried.1 with
      | .ok (some x) => (k (.ok (some x))).halt me h'
      | .fault f => (k (.error f)).halt me h'
      | _ =>
        if due deadline h.now then (k (.ok none)).halt me h'
        else (h', pop s keys deadline (some store.pushes) k)
  | join g key fill k, h => (h, join g key fill k)
  | await i k, h => (h, await i k)
  | acquire m k, h =>
    let h' := h.enqueue m me
    if (h'.waiting m).head? = some me then k.halt me h' else (h', acquire m k)
  | release m k, h => k.halt me (h.leave m me)
  | loopEnd r deadline k, h =>
    if (h.tiers.loop r).ended then (k true).halt me h
    else if due deadline h.now then (k false).halt me h
    else (h, loopEnd r deadline k)

/-- The fill of a key for which a call waits: the one in flight, or else the next thread. -/
def fillOf (h : Heap) (g : Nat) (key : String) : Nat :=
  ((h.guard g).inFlight[key]?).getD h.nextThread

/-- Begins the wait for a fill, where this is what a call has to do next. -/
def enter (fills : List Fill) (halted : Heap × Call α) : Progress α :=
  match halted with
  | (h, join g key fill k) =>
    match (h.guard g).inFlight[key]? with
    | some i => ⟨h.setGuard g (h.guard g).join, fills, await i k⟩
    | none =>
      ⟨{ h.setGuard g ((h.guard g).start key h.nextThread) with nextThread := h.nextThread + 1 },
        fills ++ [⟨h.nextThread, g, key, pause fill, 0⟩], await h.nextThread k⟩
  | (h, c) => ⟨h, fills, c⟩

/-- A step runs up to the next wait, and begins it where it is for a fill. -/
theorem exec_eq_enter (me : Nat) (c : Call α) (h : Heap) (fills : List Fill) :
    c.exec me h fills = enter fills (c.halt me h) := by
  induction c generalizing h with
  | done a => rfl
  | crash => rfl
  | read k ih => exact ih h h
  | write t k ih => exact ih _
  | pause k => rfl
  | sleep wake k ih =>
    simp only [exec, halt]
    split_ifs
    · exact ih h
    · rfl
  | pop s keys deadline seen k ih =>
    simp only [exec, halt]
    split_ifs
    · exact ih _ h
    · rfl
    · cases h₁ : (Store.tryPop h.now keys (h.tiers.store s)).1 with
      | ok x => cases x <;> exact ih _ _
      | fault f => exact ih _ _
      | overflow => exact ih _ _
    · cases h₁ : (Store.tryPop h.now keys (h.tiers.store s)).1 with
      | ok x =>
        cases x with
        | some x => exact ih _ _
        | none => rfl
      | fault f => exact ih _ _
      | overflow => rfl
  | join g key fill k =>
    cases hflight : (h.guard g).inFlight[key]? with
    | some i => simp only [exec, halt, enter, hflight]
    | none => simp only [exec, halt, enter, hflight]
  | await i k => rfl
  | acquire m k ih =>
    simp only [exec, halt]
    split_ifs
    · exact ih _
    · rfl
  | release m k ih => exact ih _
  | loopEnd r deadline k ih =>
    simp only [exec, halt]
    split_ifs
    · exact ih _ h
    · exact ih _ h
    · rfl

/-! ### What the first part of a step keeps -/

/-- A property of a heap and of what a call has yet to do is carried along, node by node. -/
structure Carried (me : Nat) (P : Heap → Call α → Prop) : Prop where
  read : ∀ {h k}, P h (.read k) → P h (k h)
  write : ∀ {h t k}, P h (.write t k) → P { h with tiers := t } k
  slept : ∀ {h wake k}, P h (.sleep wake k) → P h k
  tried : ∀ {h s keys deadline seen k} (t seen'),
    P h (.pop s keys deadline seen k) → P { h with tiers := t } (.pop s keys deadline seen' k)
  popped : ∀ {h s keys deadline seen k} (a), P h (.pop s keys deadline seen k) → P h (k a)
  enqueued : ∀ {h m k}, P h (.acquire m k) → P (h.enqueue m me) (.acquire m k)
  acquired : ∀ {h m k}, P h (.acquire m k) → P h k
  released : ∀ {h m k}, P h (.release m k) → P (h.leave m me) k
  looped : ∀ {h r deadline k} (b), P h (.loopEnd r deadline k) → P h (k b)

/-- What is carried along holds where the first part of a step ends. -/
theorem Carried.halt {me : Nat} {P : Heap → Call α → Prop} (hP : Carried me P) {c : Call α}
    {h : Heap} (hc : P h c) : P (c.halt me h).1 (c.halt me h).2 := by
  induction c generalizing h with
  | done a => exact hc
  | crash => exact hc
  | read k ih => exact ih h hP (hP.read hc)
  | write t k ih => exact ih hP (hP.write hc)
  | pause k => exact hc
  | sleep wake k ih =>
    simp only [Call.halt]
    split_ifs
    · exact ih hP (hP.slept hc)
    · exact hc
  | pop s keys deadline seen k ih =>
    simp only [Call.halt]
    split_ifs
    · exact ih _ hP (hP.popped _ hc)
    · exact hc
    · have htried := hP.tried
        (h.tiers.setStore s (Store.tryPop h.now keys (h.tiers.store s)).2) seen hc
      cases h₁ : (Store.tryPop h.now keys (h.tiers.store s)).1 with
      | ok x => cases x <;> exact ih _ hP (hP.popped _ htried)
      | fault f => exact ih _ hP (hP.popped _ htried)
      | overflow => exact ih _ hP (hP.popped _ htried)
    · have htried := hP.tried
        (h.tiers.setStore s (Store.tryPop h.now keys (h.tiers.store s)).2)
        (some (h.tiers.store s).pushes) hc
      cases h₁ : (Store.tryPop h.now keys (h.tiers.store s)).1 with
      | ok x =>
        cases x with
        | some x => exact ih _ hP (hP.popped _ htried)
        | none => exact htried
      | fault f => exact ih _ hP (hP.popped _ htried)
      | overflow => exact htried
  | join g key fill k => exact hc
  | await i k => exact hc
  | acquire m k ih =>
    simp only [Call.halt]
    split_ifs
    · exact ih hP (hP.acquired (hP.enqueued hc))
    · exact hP.enqueued hc
  | release m k ih => exact ih hP (hP.released hc)
  | loopEnd r deadline k ih =>
    simp only [Call.halt]
    split_ifs
    · exact ih _ hP (hP.looped _ hc)
    · exact ih _ hP (hP.looped _ hc)
    · exact hc

/-- A property of the heap alone that no change of the tiers and no move in the line for a lock
ends. -/
theorem carried_of_heap {me : Nat} {P : Heap → Prop}
    (htiers : ∀ h t, P h → P { h with tiers := t }) (henqueue : ∀ h m, P h → P (h.enqueue m me))
    (hleave : ∀ h m, P h → P (h.leave m me)) : Carried (α := α) me fun h _ ↦ P h where
  read hc := hc
  write hc := htiers _ _ hc
  slept hc := hc
  tried _ _ hc := htiers _ _ hc
  popped _ hc := hc
  enqueued hc := henqueue _ _ hc
  acquired hc := hc
  released hc := hleave _ _ hc
  looped _ hc := hc

/-- A step changes no guard before it begins its wait, nor the numbers of threads or the clock. -/
theorem halt_kept (me : Nat) (c : Call α) (h : Heap) :
    (c.halt me h).1.guards = h.guards ∧ (c.halt me h).1.nextThread = h.nextThread ∧
      (c.halt me h).1.now = h.now := by
  refine (carried_of_heap (P := fun h' ↦ h'.guards = h.guards ∧ h'.nextThread = h.nextThread ∧
    h'.now = h.now) (fun h' t hh ↦ hh) (fun h' m hh ↦ ?_) fun h' m hh ↦ hh).halt ⟨rfl, rfl, rfl⟩
  unfold Heap.enqueue
  split_ifs <;> exact hh

theorem nextThread_le_exec (me : Nat) (c : Call α) (h : Heap) (fills : List Fill) :
    h.nextThread ≤ (c.exec me h fills).heap.nextThread := by
  rw [exec_eq_enter, ← (halt_kept me c h).2.1]
  generalize c.halt me h = halted
  unfold enter
  split
  · split
    · exact Nat.le_refl _
    · exact Nat.le_succ _
  · exact Nat.le_refl _

/-- The fills that a step starts have numbers that no thread had before. -/
theorem fills_exec {me : Nat} {c : Call α} {h : Heap} {f : Fill}
    (hf : f ∈ (c.exec me h []).fills) :
    h.nextThread ≤ f.id ∧ f.id < (c.exec me h []).heap.nextThread := by
  rw [exec_eq_enter] at hf ⊢
  rw [← (halt_kept me c h).2.1]
  generalize c.halt me h = halted at hf ⊢
  unfold enter at hf ⊢
  split at hf
  · split at hf
    · exact absurd hf List.not_mem_nil
    · rw [List.nil_append] at hf
      rw [List.mem_singleton.mp hf]
      exact ⟨Nat.le_refl _, Nat.lt_succ_self _⟩
  · exact absurd hf List.not_mem_nil

/-! ### Waits for fills -/

/-- No wait for a fill has begun in a call: it waits for fills only that it asks a guard for. -/
def Unbegun {α : Type} : Call α → Prop
  | done _ => True
  | crash => True
  | read k => ∀ h, (k h).Unbegun
  | write _ k => k.Unbegun
  | pause k => k.Unbegun
  | sleep _ k => k.Unbegun
  | pop _ _ _ _ k => ∀ a, (k a).Unbegun
  | join _ _ fill k => fill.Unbegun ∧ ∀ a, (k a).Unbegun
  | await _ _ => False
  | acquire _ k => k.Unbegun
  | release _ k => k.Unbegun
  | loopEnd _ _ k => ∀ b, (k b).Unbegun

theorem Unbegun.bind {c : Call α} {f : α → Call β} (hc : c.Unbegun) (hf : ∀ a, (f a).Unbegun) :
    (c.bind f).Unbegun := by
  induction c with
  | done a => exact hf a
  | crash => trivial
  | read k ih => exact fun h ↦ ih h (hc h) hf
  | write t k ih => exact ih hc hf
  | pause k ih => exact ih hc hf
  | sleep wake k ih => exact ih hc hf
  | pop s keys deadline seen k ih => exact fun a ↦ ih a (hc a) hf
  | join g key fill k _ ih => exact ⟨hc.1, fun a ↦ ih a (hc.2 a) hf⟩
  | await i k => exact hc.elim
  | acquire m k ih => exact ih hc hf
  | release m k ih => exact ih hc hf
  | loopEnd r deadline k ih => exact fun b ↦ ih b (hc b) hf

theorem carried_unbegun (me : Nat) : Carried me fun (_ : Heap) (c : Call α) ↦ c.Unbegun where
  read hc := hc _
  write hc := hc
  slept hc := hc
  tried _ _ hc := hc
  popped a hc := hc a
  enqueued hc := hc
  acquired hc := hc
  released hc := hc
  looped b hc := hc b

end Call

end TwoTier
