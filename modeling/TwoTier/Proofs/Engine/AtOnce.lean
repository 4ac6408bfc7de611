import TwoTier.Proofs.Engine.Halt
import TwoTier.Tier.Contract

/-!
# Calls in sequence

A call followed by another runs up to its own end and then goes on with the other in the same step
(`Call.halt_bind`). What reads and writes only ends in one step (`Call.halt_atomically`,
`Call.halt_onLocal`, `Call.halt_onStore`), and so does what is put together from such calls.
-/

set_option autoImplicit false
set_option relaxedAutoImplicit false

namespace TwoTier

namespace Call

variable {α β γ : Type}

@[simp] theorem done_bind (a : α) (f : α → Call β) : (done a).bind f = f a := rfl

theorem bind_done (c : Call α) : c.bind done = c := by
  induction c with
  | done a => rfl
  | crash => rfl
  | read k ih => exact congrArg read (funext ih)
  | write t k ih => exact congrArg (write t) ih
  | pause k ih => exact congrArg pause ih
  | sleep wake k ih => exact congrArg (sleep wake) ih
  | pop s keys deadline seen k ih => exact congrArg (pop s keys deadline seen) (funext ih)
  | join g key fill k _ ih => exact congrArg (join g key fill) (funext ih)
  | await i k ih => exact congrArg (await i) (funext ih)
  | acquire m k ih => exact congrArg (acquire m) ih
  | release m k ih => exact congrArg (release m) ih
  | loopEnd r deadline k ih => exact congrArg (loopEnd r deadline) (funext ih)

theorem bind_assoc (c : Call α) (f : α → Call β) (g : β → Call γ) :
    (c.bind f).bind g = c.bind fun a ↦ (f a).bind g := by
  induction c with
  | done a => rfl
  | crash => rfl
  | read k ih => exact congrArg read (funext fun h ↦ ih h f)
  | write t k ih => exact congrArg (write t) (ih f)
  | pause k ih => exact congrArg pause (ih f)
  | sleep wake k ih => exact congrArg (sleep wake) (ih f)
  | pop s keys deadline seen k ih =>
    exact congrArg (pop s keys deadline seen) (funext fun a ↦ ih a f)
  | join g' key fill k _ ih => exact congrArg (join g' key fill) (funext fun a ↦ ih a f)
  | await i k ih => exact congrArg (await i) (funext fun a ↦ ih a f)
  | acquire m k ih => exact congrArg (acquire m) (ih f)
  | release m k ih => exact congrArg (release m) (ih f)
  | loopEnd r deadline k ih => exact congrArg (loopEnd r deadline) (funext fun b ↦ ih b f)

/-- How a call goes on with another where its own first part ends. -/
def haltThen (me : Nat) (f : α → Call β) : Heap × Call α → Heap × Call β
  | (h, done a) => (f a).halt me h
  | (h, c) => (h, c.bind f)

theorem halt_bind (me : Nat) (c : Call α) (f : α → Call β) (h : Heap) :
    (c.bind f).halt me h = haltThen me f (c.halt me h) := by
  induction c generalizing h with
  | done a => rfl
  | crash => rfl
  | read k ih => exact ih h f h
  | write t k ih => exact ih f _
  | pause k => rfl
  | sleep wake k ih =>
    simp only [Call.bind, halt]
    split_ifs
    · exact ih f h
    · rfl
  | pop s keys deadline seen k ih =>
    simp only [Call.bind, halt]
    split_ifs
    · exact ih _ f h
    · rfl
    · cases h₁ : (Store.tryPop h.now keys (h.tiers.store s)).1 with
      | ok x => cases x <;> exact ih _ f _
      | fault e => exact ih _ f _
      | overflow => exact ih _ f _
    · cases h₁ : (Store.tryPop h.now keys (h.tiers.store s)).1 with
      | ok x =>
        cases x with
        | some x => exact ih _ f _
        | none => rfl
      | fault e => exact ih _ f _
      | overflow => rfl
  | join g key fill k => rfl
  | await i k => rfl
  | acquire m k ih =>
    simp only [Call.bind, halt]
    split_ifs
    · exact ih f _
    · rfl
  | release m k ih => exact ih f _
  | loopEnd r deadline k ih =>
    simp only [Call.bind, halt]
    split_ifs
    · exact ih _ f h
    · exact ih _ f h
    · rfl

/-- A call that is answered at once goes on with the other. -/
theorem halt_bind_of_done {me : Nat} {c : Call α} {h h' : Heap} {a : α}
    (hc : c.halt me h = (h', done a)) (f : α → Call β) :
    (c.bind f).halt me h = (f a).halt me h' := by
  rw [halt_bind, hc]
  rfl

theorem halt_bind_of_crash {me : Nat} {c : Call α} {h h' : Heap}
    (hc : c.halt me h = (h', crash)) (f : α → Call β) : (c.bind f).halt me h = (h', crash) := by
  rw [halt_bind, hc]
  rfl

theorem halt_atomically (me : Nat) (f : Heap → α × Tiers) (h : Heap) :
    (atomically f).halt me h = ({ h with tiers := (f h).2 }, done (f h).1) := rfl

theorem halt_onLocal (me : Nat) (l : Nat) (op : Nat → LocalCache → α × LocalCache)
    (h : Heap) :
    (onLocal l op).halt me h =
      ({ h with tiers := h.tiers.setLocal l (op h.now (h.tiers.localTier l)).2 },
        done (op h.now (h.tiers.localTier l)).1) := rfl

theorem halt_look (me : Nat) (f : Heap → α) (h : Heap) :
    (look f).halt me h = (h, done (f h)) := rfl

/-- How the outcome of an operation on a store ends the call that ran it. -/
def ofOutcome : Outcome α → Call (Answer α)
  | .ok a => done (.ok a)
  | .fault f => done (.error f)
  | .overflow => crash

theorem halt_onStore (me : Nat) (s : Nat) (op : Nat → Store → Outcome α × Store)
    (h : Heap) :
    (onStore s op).halt me h =
      ({ h with tiers := h.tiers.setStore s (op h.now (h.tiers.store s)).2 },
        ofOutcome (op h.now (h.tiers.store s)).1) := by
  unfold onStore
  simp only [halt]
  cases (op h.now (h.tiers.store s)).1 <;> rfl

/-! ### What a call at once leads to -/

/-- A call ends in one step: with an answer and a heap that `P` admits, or, where it cannot go on,
with a heap that `F` admits. -/
def AtOnce (me : Nat) (c : Call α) (h : Heap) (P : α → Heap → Prop) (F : Heap → Prop) : Prop :=
  (∃ h' a, c.halt me h = (h', done a) ∧ P a h') ∨ ∃ h', c.halt me h = (h', crash) ∧ F h'

namespace AtOnce

variable {me : Nat} {h : Heap} {P : α → Heap → Prop} {Q : β → Heap → Prop} {F : Heap → Prop}

theorem done {a : α} (hP : P a h) : AtOnce me (pure a) h P F := Or.inl ⟨h, a, rfl, hP⟩

theorem crash (hF : F h) : AtOnce me Call.crash h P F := Or.inr ⟨h, rfl, hF⟩

theorem bind {c : Call α} {f : α → Call β} (hc : AtOnce me c h P F)
    (hf : ∀ a h', P a h' → AtOnce me (f a) h' Q F) : AtOnce me (c >>= f) h Q F := by
  rcases hc with ⟨h', a, hhalt, hP⟩ | ⟨h', hhalt, hF⟩
  · rcases hf a h' hP with ⟨h'', b, hhalt', hQ⟩ | ⟨h'', hhalt', hF⟩
    · exact Or.inl ⟨h'', b, (halt_bind_of_done hhalt f).trans hhalt', hQ⟩
    · exact Or.inr ⟨h'', (halt_bind_of_done hhalt f).trans hhalt', hF⟩
  · exact Or.inr ⟨h', halt_bind_of_crash hhalt f, hF⟩

theorem mono {c : Call α} {P' : α → Heap → Prop} {F' : Heap → Prop} (hc : AtOnce me c h P F)
    (hP : ∀ a h', P a h' → P' a h') (hF : ∀ h', F h' → F' h') : AtOnce me c h P' F' := by
  rcases hc with ⟨h', a, hhalt, hpost⟩ | ⟨h', hhalt, hfail⟩
  · exact Or.inl ⟨h', a, hhalt, hP a h' hpost⟩
  · exact Or.inr ⟨h', hhalt, hF h' hfail⟩

theorem and {c : Call α} {P' : α → Heap → Prop} {F' : Heap → Prop} (hc : AtOnce me c h P F)
    (hc' : AtOnce me c h P' F') :
    AtOnce me c h (fun a h' ↦ P a h' ∧ P' a h') fun h' ↦ F h' ∧ F' h' := by
  rcases hc with ⟨h₁, a, hhalt, hP⟩ | ⟨h₁, hhalt, hF⟩ <;>
    rcases hc' with ⟨h₂, b, hhalt', hP'⟩ | ⟨h₂, hhalt', hF'⟩ <;>
    rw [hhalt] at hhalt' <;> cases hhalt'
  · exact Or.inl ⟨h₁, a, hhalt, hP, hP'⟩
  · exact Or.inr ⟨h₁, hhalt, hF, hF'⟩

theorem discard {c : Call α} {R : Heap → Prop} (hc : AtOnce me c h (fun _ ↦ R) F) :
    AtOnce me (Functor.discard c) h (fun _ ↦ R) F :=
  hc.bind fun _ _ hR ↦ AtOnce.done hR

theorem look {f : Heap → α} (hP : P (f h) h) : AtOnce me (Call.look f) h P F :=
  Or.inl ⟨h, f h, halt_look me f h, hP⟩

theorem atomically {f : Heap → α × Tiers} (hP : P (f h).1 { h with tiers := (f h).2 }) :
    AtOnce me (Call.atomically f) h P F :=
  Or.inl ⟨_, _, halt_atomically me f h, hP⟩

theorem onLocal {l : Nat} {op : Nat → LocalCache → α × LocalCache}
    (hP : P (op h.now (h.tiers.localTier l)).1
      { h with tiers := h.tiers.setLocal l (op h.now (h.tiers.localTier l)).2 }) :
    AtOnce me (Call.onLocal l op) h P F :=
  Or.inl ⟨_, _, halt_onLocal me l op h, hP⟩

theorem onStore {s : Nat} {op : Nat → Store → Outcome α × Store} {P : Answer α → Heap → Prop}
    (hok : ∀ a, (op h.now (h.tiers.store s)).1 = .ok a →
      P (.ok a) { h with tiers := h.tiers.setStore s (op h.now (h.tiers.store s)).2 })
    (hfault : ∀ f, (op h.now (h.tiers.store s)).1 = .fault f →
      P (.error f) { h with tiers := h.tiers.setStore s (op h.now (h.tiers.store s)).2 })
    (hoverflow : (op h.now (h.tiers.store s)).1 = .overflow →
      F { h with tiers := h.tiers.setStore s (op h.now (h.tiers.store s)).2 }) :
    AtOnce me (Call.onStore s op) h P F := by
  have hhalt := halt_onStore me s op h
  cases hop : (op h.now (h.tiers.store s)).1 with
  | ok a => exact Or.inl ⟨_, .ok a, by rw [hhalt, hop]; rfl, hok a hop⟩
  | fault f => exact Or.inl ⟨_, .error f, by rw [hhalt, hop]; rfl, hfault f hop⟩
  | overflow => exact Or.inr ⟨_, by rw [hhalt, hop]; rfl, hoverflow hop⟩

/-- An operation on a store, whatever it answers. -/
theorem onStore_of_heap {s : Nat} {op : Nat → Store → Outcome α × Store} {Q : Heap → Prop}
    (hQ : Q { h with tiers := h.tiers.setStore s (op h.now (h.tiers.store s)).2 }) :
    AtOnce me (Call.onStore s op) h (fun _ h' ↦ Q h') Q :=
  onStore (fun _ _ ↦ hQ) (fun _ _ ↦ hQ) fun _ ↦ hQ

/-- An operation on a store whose answer is known. -/
theorem onStore_of_ok {s : Nat} {op : Nat → Store → Outcome α × Store} {P : Answer α → Heap → Prop}
    {a : α} (hop : (op h.now (h.tiers.store s)).1 = .ok a)
    (hP : P (.ok a) { h with tiers := h.tiers.setStore s (op h.now (h.tiers.store s)).2 }) :
    AtOnce me (Call.onStore s op) h P F :=
  Or.inl ⟨_, .ok a, by rw [halt_onStore, hop]; rfl, hP⟩

theorem onStore_of_fault {s : Nat} {op : Nat → Store → Outcome α × Store}
    {P : Answer α → Heap → Prop} {f : Fault} (hop : (op h.now (h.tiers.store s)).1 = .fault f)
    (hP : P (.error f) { h with tiers := h.tiers.setStore s (op h.now (h.tiers.store s)).2 }) :
    AtOnce me (Call.onStore s op) h P F :=
  Or.inl ⟨_, .error f, by rw [halt_onStore, hop]; rfl, hP⟩

theorem onStore_of_overflow {s : Nat} {op : Nat → Store → Outcome α × Store}
    {P : Answer α → Heap → Prop} (hop : (op h.now (h.tiers.store s)).1 = .overflow)
    (hF : F { h with tiers := h.tiers.setStore s (op h.now (h.tiers.store s)).2 }) :
    AtOnce me (Call.onStore s op) h P F :=
  Or.inr ⟨_, by rw [halt_onStore, hop]; rfl, hF⟩

/-- What the step of a call that ends at once leaves to do is nothing. -/
theorem rest_exec {c : Call α} (hc : AtOnce me c h P F) :
    (∃ a, (c.exec me h []).rest = .done a ∧ P a (c.exec me h []).heap) ∨
      (c.exec me h []).rest = .crash ∧ F (c.exec me h []).heap := by
  rw [exec_eq_enter]
  rcases hc with ⟨h', a, hhalt, hpost⟩ | ⟨h', hhalt, hfail⟩
  · rw [hhalt]
    exact Or.inl ⟨a, rfl, hpost⟩
  · rw [hhalt]
    exact Or.inr ⟨rfl, hfail⟩

end AtOnce

end Call

end TwoTier
