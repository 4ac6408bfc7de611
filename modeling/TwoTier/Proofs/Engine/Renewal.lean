import TwoTier.Proofs.Engine.Play

/-!
# Invariants that come to hold later

An invariant may come to hold in the middle of a run, when calls have long begun: it is what they
have yet to do that has to keep it from there on. A call that belongs to a class of calls at each of
its waits (`Marked.Lasting`) belongs to it whenever others look at it, so that all threads of a play
stay in a class of such calls (`Play.Reachable.within`). If these keep an invariant from wherever it
holds, the play keeps it from any moment at which it does (`Play.Sound.renew`).
-/

set_option autoImplicit false
set_option relaxedAutoImplicit false

namespace TwoTier

section Renewal

variable {ε ρ α : Type} {C : ∀ α : Type, Marked ε α → Prop}

namespace Marked

/-- The call belongs to a class of calls at each of its waits and where it ends, and so do the fills
that it starts. -/
def Lasting (C : ∀ α : Type, Marked ε α → Prop) {α : Type} : Marked ε α → Prop
  | done a => C α (done a)
  | crash => C α crash
  | act _ k => C α crash ∧ ∀ b, Lasting C (k b)
  | mark _ k => Lasting C k
  | pause k => C α (pause k) ∧ Lasting C k
  | sleep wake k => C α (sleep wake k) ∧ Lasting C k
  | pop s keys deadline _ k =>
    (∀ seen, C α (pop s keys deadline seen k)) ∧ ∀ a, Lasting C (k a)
  | join g key fill k => C α (join g key fill k) ∧ (∀ i, C α (await i k)) ∧
      (∀ o, Lasting C (k o)) ∧ C (Answer String) (pause fill) ∧ Lasting C fill
  | await i k => C α (await i k) ∧ ∀ o, Lasting C (k o)
  | acquire m k => C α (acquire m k) ∧ Lasting C k
  | release _ k => Lasting C k
  | loopEnd r deadline k => C α (loopEnd r deadline k) ∧ ∀ b, Lasting C (k b)

theorem Lasting.of_waits {m : Marked ε α} (hm : m.Lasting C) (hwaits : m.Waits) : C α m := by
  cases m with
  | done a => exact hm
  | crash => exact hm
  | act c k => exact hwaits.elim
  | mark e k => exact hwaits.elim
  | release lock k => exact hwaits.elim
  | pop s keys deadline seen k => exact hm.1 seen
  | _ => exact hm.1

/-- What is left of the call after a step belongs to the class again. -/
theorem Lasting.halt {m : Marked ε α} (hm : m.Lasting C) (me : Nat) (h : Heap) (l : Log ε) :
    (m.halt me h l).rest.Lasting C := by
  induction m generalizing h l with
  | act c k ih =>
    simp only [Marked.halt]
    split
    · exact ih _ (hm.2 _) _ _
    · exact hm.1
    · exact hm
  | mark e k ih => exact ih hm _ _
  | sleep wake k ih =>
    simp only [Marked.halt]
    split
    · exact ih hm.2 _ _
    · exact hm
  | pop s keys deadline seen k ih =>
    obtain ⟨hclass, hk⟩ := hm
    have hstay : ∀ seen, (pop s keys deadline seen k).Lasting C := fun _ ↦ ⟨hclass, hk⟩
    simp only [Marked.halt]
    split
    · split
      · exact ih _ (hk _) _ _
      · exact hstay _
    · split
      · exact ih _ (hk _) _ _
      · exact ih _ (hk _) _ _
      · split
        · exact ih _ (hk _) _ _
        · exact hstay _
  | acquire lock k ih =>
    simp only [Marked.halt]
    split
    · exact ih hm.2 _ _
    · exact hm
  | release lock k ih => exact ih hm _ _
  | loopEnd r deadline k ih =>
    simp only [Marked.halt]
    split
    · exact ih _ (hm.2 _) _ _
    · split
      · exact ih _ (hm.2 _) _ _
      · exact hm
  | _ => exact hm

end Marked

namespace Play

/-- What all threads have yet to do belongs to a class of calls. -/
structure Within (C : ∀ α : Type, Marked ε α → Prop) (p : Play ε ρ) : Prop where
  task : ∀ i, C ρ (p.task i)
  fill : ∀ i, C (Answer String) (p.fill i)

/-- A call whose wait is over goes on as a call of the class. -/
theorem lasting_resume {p : Play ε ρ} {m : Marked ε α} (hm : m.Lasting C) :
    (p.resume m).Lasting C := by
  unfold resume
  split
  · exact hm.2
  · split
    · exact hm.2 _
    · exact hm
  · exact hm

/-- A call that has begun to wait for a fill belongs to the class still. -/
theorem within_entered {r : Halted ε α} (hr : r.rest.Lasting C) (hwaits : r.rest.Waits) :
    C α (entered r) := by
  unfold entered
  split
  · rename_i hrest
    rw [hrest] at hr
    exact hr.2.1 _
  · exact hr.of_waits hwaits

/-- The fill that a call has started belongs to the class. -/
theorem within_withFill {fill : Nat → Marked ε (Answer String)} {r : Halted ε α}
    (hfill : ∀ i, C (Answer String) (fill i)) (hr : r.rest.Lasting C) (i : Nat) :
    C (Answer String) (withFill fill r i) := by
  obtain ⟨h, l, rest⟩ := r
  cases rest with
  | join g key m k =>
    unfold withFill
    dsimp only
    split
    · exact hfill i
    · dsimp only
      split
      · exact hr.2.2.2.1
      · exact hfill i
  | _ => exact hfill i

section Sound

variable {I : Heap → Log ε → Prop} {p : Play ε ρ}

/-- What is left of a thread after its step, and the fills after it. -/
theorem Ready.within_halt (hlasting : ∀ {α : Type} {m : Marked ε α}, C α m → m.Lasting C)
    (hi : I p.world.heap p.log) {me : Nat} {code : Call α} {m : Marked ε α}
    (hready : Ready I p.log me code m) (hm : C α m)
    (hfill : ∀ i, C (Answer String) (p.fill i)) :
    let r := (p.resume m).halt me p.world.heap p.log
    C α (entered r) ∧ ∀ i, C (Answer String) (withFill p.fill r i) := by
  intro r
  -- that the step ends at a wait is known from the invariant that held before
  have hwaits : r.rest.Waits := (hready.resume hi).2.halt.2.1
  have hrest : r.rest.Lasting C := (lasting_resume (hlasting hm)).halt me _ _
  exact ⟨within_entered hrest hwaits, within_withFill hfill hrest⟩

/-- Every move that the rules allow leaves all threads within the class. -/
theorem Within.apply {rules : Rules ε ρ} (hw : p.Within C)
    (hlasting : ∀ {α : Type} {m : Marked ε α}, C α m → m.Lasting C)
    (hcall : ∀ {m}, rules.call m → C ρ m) (hs : Sound I rules.named p) {m : Move ε ρ}
    (hm : p.Allowed rules m) : (p.apply m).Within C := by
  cases m with
  | run th =>
    cases th with
    | task i =>
      cases ht : p.world.tasks.find? fun t ↦ t.id = i with
      | none =>
        simp only [Play.apply, ht]
        exact hw
      | some t =>
        obtain ⟨hmem, rfl⟩ := World.mem_of_find? ht
        obtain ⟨hrest, hfills⟩ :=
          (hs.tasks t hmem).within_halt hlasting hs.inv (hw.task t.id) hw.fill
        simp only [Play.apply, ht]
        refine ⟨fun j ↦ ?_, hfills⟩
        dsimp only
        split
        · exact hrest
        · exact hw.task j
    | fill i =>
      cases hf : p.world.fills.find? fun f ↦ f.id = i with
      | none =>
        simp only [Play.apply, hf]
        exact hw
      | some f =>
        obtain ⟨hmem, rfl⟩ := World.mem_fills_of_find? hf
        obtain ⟨hrest, hfills⟩ :=
          (hs.fills f hmem).within_halt hlasting hs.inv (hw.fill f.id) hw.fill
        simp only [Play.apply, hf]
        refine ⟨hw.task, fun j ↦ ?_⟩
        dsimp only
        split
        · exact hrest
        · exact hfills j
    | loop r => exact ⟨hw.task, hw.fill⟩
  | spawn held code =>
    refine ⟨fun j ↦ ?_, hw.fill⟩
    simp only [Play.apply]
    split
    · exact hcall hm
    · exact hw.task j
  | abort i => exact ⟨hw.task, hw.fill⟩
  | advance t => exact ⟨hw.task, hw.fill⟩
  | hold names guarded => exact ⟨hw.task, hw.fill⟩

theorem within_opening {now : Nat} {tiers : Tiers} {named : List Held}
    (hcrash : ∀ {α : Type}, C α .crash) : (opening now tiers named : Play ε ρ).Within C :=
  ⟨fun _ ↦ hcrash, fun _ ↦ hcrash⟩

/-- All threads of every play that is reached are within the class. -/
theorem Reachable.within {rules : Rules ε ρ} {p₀ : Play ε ρ} (h : Reachable rules p₀ p)
    (hlasting : ∀ {α : Type} {m : Marked ε α}, C α m → m.Lasting C)
    (hcall : ∀ {m}, rules.call m → C ρ m) (hI : rules.Keep I) (h₀ : Sound I rules.named p₀)
    (hw : p₀.Within C) : p.Within C := by
  induction h with
  | start => exact hw
  | move m hm hbefore ih => exact ih.apply hlasting hcall (hbefore.sound hI h₀) hm

/-- Another invariant begins to hold: from there on all threads keep it, whatever they have done so
far. -/
theorem Sound.renew {named : List Held} (hs : Sound I named p) (hw : p.Within C)
    {J : Heap → Log ε → Prop}
    (hsafe : ∀ {α : Type} {m : Marked ε α}, C α m → ∀ {me h l}, J h l → Marked.Safe J me m h l)
    (hJ : J p.world.heap p.log) : Sound J named p where
  inv := hJ
  numbered := hs.numbered
  marks := hs.marks
  tasks t ht :=
    ⟨(hs.tasks t ht).code_eq, (hs.tasks t ht).opens, fun _ _ hj _ ↦ hsafe (hw.task t.id) hj⟩
  fills f hf :=
    ⟨(hs.fills f hf).code_eq, (hs.fills f hf).opens, fun _ _ hj _ ↦ hsafe (hw.fill f.id) hj⟩
  named_subset := hs.named_subset

end Sound

end Play

end Renewal

end TwoTier
