import TwoTier.Proofs.Engine.Turns
import TwoTier.Tier.Local

/-!
# With what a call can end

A call may find anything at its turns, and others may do anything between them. What it can end with
is bounded by its code (`Call.EndsIn`): a call that keeps to some answers while the clock is below a
limit keeps to them after any turns (`Call.EndsIn.after`), and is never left unable to go on.
-/

set_option autoImplicit false
set_option relaxedAutoImplicit false

namespace TwoTier

namespace Call

/-- Whatever it finds, a call ends with nothing but an answer that is admitted, as long as the clock
is below a limit. -/
def EndsIn (limit : Nat) {α : Type} : Call α → (α → Prop) → Prop
  | done a, P => P a
  | crash, _ => False
  | read k, P => ∀ h, h.now < limit → (k h).EndsIn limit P
  | write _ k, P => k.EndsIn limit P
  | pause k, P => k.EndsIn limit P
  | sleep _ k, P => k.EndsIn limit P
  | pop _ _ _ _ k, P => ∀ a, (k a).EndsIn limit P
  | join _ _ _ k, P => ∀ a, (k a).EndsIn limit P
  | await _ k, P => ∀ a, (k a).EndsIn limit P
  | acquire _ k, P => k.EndsIn limit P
  | release _ k, P => k.EndsIn limit P
  | loopEnd _ _ k, P => ∀ b, (k b).EndsIn limit P

namespace EndsIn

variable {limit : Nat} {α β : Type} {P Q : α → Prop} {c : Call α}

theorem bind {R : β → Prop} {f : α → Call β} (hc : c.EndsIn limit P)
    (hf : ∀ a, P a → (f a).EndsIn limit R) : (c.bind f).EndsIn limit R := by
  induction c with
  | done a => exact hf a hc
  | crash => exact hc.elim
  | read k ih => exact fun h hnow ↦ ih h (hc h hnow) hf
  | write t k ih => exact ih hc hf
  | pause k ih => exact ih hc hf
  | sleep wake k ih => exact ih hc hf
  | pop s keys deadline seen k ih => exact fun a ↦ ih a (hc a) hf
  | join g key fill k _ ih => exact fun a ↦ ih a (hc a) hf
  | await i k ih => exact fun a ↦ ih a (hc a) hf
  | acquire m k ih => exact ih hc hf
  | release m k ih => exact ih hc hf
  | loopEnd r deadline k ih => exact fun b ↦ ih b (hc b) hf

theorem carried (me : Nat) :
    Carried me fun (h : Heap) (c : Call α) ↦ h.now < limit ∧ c.EndsIn limit P where
  read hc := ⟨hc.1, hc.2 _ hc.1⟩
  write hc := hc
  slept hc := hc
  tried _ _ hc := hc
  popped a hc := ⟨hc.1, hc.2 a⟩
  enqueued {h m _} hc := ⟨(Heap.now_enqueue h m me).symm ▸ hc.1, hc.2⟩
  acquired hc := hc
  released hc := hc
  looped b hc := ⟨hc.1, hc.2 b⟩

/-- What is left of a call after a step. -/
theorem exec (hc : c.EndsIn limit P) (me : Nat) {h : Heap} (hnow : h.now < limit) :
    (c.exec me h []).rest.EndsIn limit P := by
  rw [exec_eq_enter]
  have hhalted := ((carried me).halt ⟨hnow, hc⟩).2
  generalize c.halt me h = halted at hhalted
  obtain ⟨h', c'⟩ := halted
  cases c' with
  | join g key fill k =>
    simp only [enter]
    split <;> exact hhalted
  | _ => exact hhalted

variable {ρ : Type}

theorem resume (hc : c.EndsIn limit P) (w : World ρ) : (w.resume c).EndsIn limit P := by
  unfold World.resume
  split
  · exact hc
  · split
    · exact hc _
    · exact hc
  · exact hc

/-- What is left of a call after some turns. -/
theorem after (hc : c.EndsIn limit P) (me : Nat) {ws : List (World ρ)}
    (hws : ∀ w ∈ ws, w.now < limit) : (c.after me ws).EndsIn limit P := by
  induction ws generalizing c with
  | nil => exact hc
  | cons w ws ih =>
    exact ih ((hc.resume w).exec me (hws w List.mem_cons_self))
      fun w' hw' ↦ hws w' (List.mem_cons_of_mem _ hw')

/-! ### Small calls -/

theorem look {f : Heap → α} (hP : ∀ h, h.now < limit → P (f h)) : (Call.look f).EndsIn limit P :=
  hP

theorem atomically {f : Heap → α × Tiers} (hP : ∀ h, h.now < limit → P (f h).1) :
    (Call.atomically f).EndsIn limit P :=
  hP

theorem onLocal {l : Nat} {op : Nat → LocalCache → α × LocalCache}
    (hP : ∀ now x, now < limit → P (op now x).1) : (Call.onLocal l op).EndsIn limit P :=
  atomically fun h hnow ↦ hP h.now (h.tiers.localTier l) hnow

/-- An operation on a store that always has an outcome. -/
theorem onStore {s : Nat} {op : Nat → Store → Outcome α × Store} {P : Answer α → Prop}
    (hop : ∀ now x, now < limit → (op now x).1 ≠ .overflow) (hP : ∀ a, P a) :
    (Call.onStore s op).EndsIn limit P := by
  intro h hnow
  change Call.EndsIn limit (ofOutcome (op h.now (h.tiers.store s)).1) P
  have hne := hop h.now (h.tiers.store s) hnow
  generalize (op h.now (h.tiers.store s)).1 = outcome at hne
  cases outcome with
  | ok a => exact hP _
  | fault f => exact hP _
  | overflow => exact hne rfl

theorem discard (hc : c.EndsIn limit P) :
    (Functor.discard c : Call Unit).EndsIn limit fun _ ↦ True :=
  hc.bind fun _ _ ↦ trivial

theorem whenOpen {l : LocalHandle} {c : Call (Answer α)} {P : Answer α → Prop}
    (hclosed : P (.error .closed)) (hc : c.EndsIn limit P) : (l.whenOpen c).EndsIn limit P := by
  refine bind (P := fun _ ↦ True) (fun _ _ ↦ trivial) fun closed _ ↦ ?_
  cases closed with
  | true => exact hclosed
  | false => exact hc

end EndsIn

end Call

end TwoTier
