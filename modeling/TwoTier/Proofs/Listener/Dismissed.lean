import TwoTier.Proofs.Engine.Quiet
import TwoTier.Proofs.Listener.Lifecycle

/-!
# Loops that were told to end

A receive loop that was told to end (`Tiers.Dismissed`) stays so, whatever its own steps, those of
other loops and of tasks do (`Tiers.Abides`), and it hears of nothing any more: the step in which it
ends changes no local tier, and no listener counts anything (`Tiers.unheard_stepLoop`).

The marks of starts and stops name such loops. What they say of the loops that they name
(`Listener.Recorded`) stays true.
-/

set_option autoImplicit false
set_option relaxedAutoImplicit false

namespace TwoTier

namespace Tiers

variable {t t' t'' : Tiers}

/-- A loop was made, and it was told to end. -/
def Dismissed (t : Tiers) (r : Nat) : Prop := r < t.next ∧ (t.loop r).cancelled = true

/-- No local tier has changed, and no listener has counted anything. -/
structure Unheard (t t' : Tiers) : Prop where
  locals : t'.locals = t.locals
  received : ∀ i, (t'.listener i).received = (t.listener i).received
  applied : ∀ i, (t'.listener i).applied = (t.listener i).applied
  ignored : ∀ i, (t'.listener i).ignored = (t.listener i).ignored
  failed : ∀ i, (t'.listener i).failed = (t.listener i).failed

theorem unheard_closeLoop (t : Tiers) (r : Nat) : Unheard t (t.closeLoop r) := by
  unfold closeLoop unsubscribe
  dsimp only
  split <;> exact ⟨rfl, fun _ ↦ rfl, fun _ ↦ rfl, fun _ ↦ rfl, fun _ ↦ rfl⟩

theorem unheard_endLoop (t : Tiers) (r : Nat) : Unheard t (t.endLoop r) := by
  have hclose := unheard_closeLoop t r
  unfold endLoop
  dsimp only
  split
  · generalize t.closeLoop r = t' at hclose
    refine ⟨hclose.locals, fun i ↦ ?_, fun i ↦ ?_, fun i ↦ ?_, fun i ↦ ?_⟩
    all_goals
      rw [listener_setListener]
      split_ifs with hi
    · exact hi ▸ hclose.received i
    · exact hclose.received i
    · exact hi ▸ hclose.applied i
    · exact hclose.applied i
    · exact hi ▸ hclose.ignored i
    · exact hclose.ignored i
    · exact hi ▸ hclose.failed i
    · exact hclose.failed i
  · exact hclose

/-- A loop that has ended or was told to end hears of nothing. -/
theorem unheard_stepLoop {r : Nat} (h : (t.loop r).ended = true ∨ (t.loop r).cancelled = true) :
    Unheard t (t.stepLoop r) := by
  unfold stepLoop
  dsimp only
  split_ifs with hended hcancelled
  · exact ⟨rfl, fun _ ↦ rfl, fun _ ↦ rfl, fun _ ↦ rfl, fun _ ↦ rfl⟩
  · exact unheard_endLoop t r
  · exact absurd h (not_or.mpr ⟨hended, hcancelled⟩)

/-! ### What they stay through -/

/-- Hybrid tiers keep their listeners, these keep their channels, and loops that were told to end
stay so. -/
structure Abides (t t' : Tiers) : Prop where
  slots : t'.slots = t.slots
  channel : ∀ i, (t'.listener i).channel = (t.listener i).channel
  next_le : t.next ≤ t'.next
  cancelled : ∀ r, r < t.next → (t.loop r).cancelled = true → (t'.loop r).cancelled = true

namespace Abides

theorem refl (t : Tiers) : Abides t t := ⟨rfl, fun _ ↦ rfl, Nat.le_refl _, fun _ _ h ↦ h⟩

theorem trans (h : Abides t t') (h' : Abides t' t'') : Abides t t'' where
  slots := h'.slots.trans h.slots
  channel i := (h'.channel i).trans (h.channel i)
  next_le := Nat.le_trans h.next_le h'.next_le
  cancelled r hr hcancelled :=
    h'.cancelled r (Nat.lt_of_lt_of_le hr h.next_le) (h.cancelled r hr hcancelled)

theorem dismissed (h : Abides t t') {r : Nat} (hr : t.Dismissed r) : t'.Dismissed r :=
  ⟨Nat.lt_of_lt_of_le hr.1 h.next_le, h.cancelled r hr.1 hr.2⟩

/-- What touches neither the loops nor the places of hybrid tiers. -/
theorem of_eq (hslots : t'.slots = t.slots) (hloops : t'.loops = t.loops) (hnext : t.next ≤ t'.next)
    (hchannel : ∀ i, (t'.listener i).channel = (t.listener i).channel) : Abides t t' :=
  ⟨hslots, hchannel, hnext, fun r _ h ↦ by unfold loop at h ⊢; rw [hloops]; exact h⟩

end Abides

theorem loop_setLoop (t : Tiers) (i r : Nat) (y : Loop) :
    (t.setLoop i y).loop r = if r = i then y else t.loop r := by
  simp [loop, setLoop]

theorem abides_setLoop (t : Tiers) {r : Nat} {y : Loop}
    (hy : (t.loop r).cancelled = true → y.cancelled = true) : Abides t (t.setLoop r y) := by
  refine ⟨rfl, fun _ ↦ rfl, Nat.le_refl _, fun i _ hi ↦ ?_⟩
  rw [loop_setLoop]
  split_ifs with hir
  · rw [hir] at hi
    exact hy hi
  · exact hi

theorem abides_setListener (t : Tiers) {i : Nat} {x : Listener}
    (hx : x.channel = (t.listener i).channel) : Abides t (t.setListener i x) := by
  refine .of_eq rfl rfl (Nat.le_refl _) fun j ↦ ?_
  rw [listener_setListener]
  split_ifs with hj
  · rw [hj]
    exact hx
  · rfl

theorem abides_setStore (t : Tiers) (i : Nat) (x : Store) : Abides t (t.setStore i x) :=
  .of_eq rfl rfl (Nat.le_refl _) fun _ ↦ rfl

theorem abides_setServer (t : Tiers) (i : Nat) (x : Server) : Abides t (t.setServer i x) :=
  .of_eq rfl rfl (Nat.le_refl _) fun _ ↦ rfl

theorem abides_cancelLoop (t : Tiers) (r : Nat) : Abides t (t.cancelLoop r) :=
  abides_setLoop t fun _ ↦ rfl

theorem abides_unsubscribe (t : Tiers) (source : Source) (i : Nat) :
    Abides t (t.unsubscribe source i) := by
  unfold unsubscribe
  split
  · exact abides_setStore t _ _
  · exact abides_setServer t _ _

theorem abides_closeLoop (t : Tiers) (r : Nat) : Abides t (t.closeLoop r) := by
  have hunsubscribe := abides_unsubscribe t (t.loop r).source (t.loop r).subscription
  have hsame : (t.unsubscribe (t.loop r).source (t.loop r).subscription).loop r = t.loop r := by
    unfold loop
    rw [loops_unsubscribe]
  refine hunsubscribe.trans (abides_setLoop _ fun h ↦ ?_)
  rw [hsame] at h
  exact h

theorem abides_endLoop (t : Tiers) (r : Nat) : Abides t (t.endLoop r) := by
  unfold endLoop
  dsimp only
  split
  · exact (abides_closeLoop t r).trans (abides_setListener _ rfl)
  · exact abides_closeLoop t r

theorem abides_applyNotice (t : Tiers) (i : Nat) (payload : String) :
    Abides t (t.applyNotice i payload) := by
  unfold applyNotice
  dsimp only
  split
  · exact abides_setListener t rfl
  · have hdrop : Abides t (t.setLocal (t.listener i).localTier
        ((t.localTier (t.listener i).localTier).drop payload)) :=
      .of_eq rfl rfl (Nat.le_refl _) fun _ ↦ rfl
    exact hdrop.trans (abides_setListener _ rfl)

theorem abides_failNotice (t : Tiers) (i : Nat) : Abides t (t.failNotice i) :=
  abides_setListener t rfl

theorem abides_setStage (t : Tiers) (l : Nat) (state : ListenerState) :
    Abides t (t.setStage l state) :=
  abides_setListener t rfl

theorem abides_takeLoop (t : Tiers) (l : Nat) : Abides t (t.takeLoop l).2 :=
  abides_setListener t rfl

theorem abides_stepLoop (t : Tiers) (r : Nat) : Abides t (t.stepLoop r) := by
  unfold stepLoop
  dsimp only
  split
  · exact .refl t
  · split
    · exact abides_endLoop t r
    · split
      · split
        · exact (abides_setStore t _ _).trans (abides_applyNotice _ _ _)
        · exact (abides_setStore t _ _).trans (abides_failNotice _ _)
        · exact (abides_setStore t _ _).trans (abides_endLoop _ r)
        · exact .refl t
      · split
        · split
          · exact (abides_setServer t _ _).trans (abides_applyNotice _ _ _)
          · exact (abides_setServer t _ _).trans (abides_failNotice _ _)
        · exact (abides_setServer t _ _).trans (abides_endLoop _ r)
        · exact .refl t

theorem abides_release (t : Tiers) (held : List Held) : Abides t (t.release held) := by
  refine release_of_abandon .refl .trans (fun t i ↦ ?_) (fun t i ↦ abides_setStore t i _) t held
  have htaken := abides_takeLoop t i
  unfold abandonListener
  split <;> rename_i heq <;> rw [heq] at htaken
  · exact htaken.trans (abides_cancelLoop _ _)
  · exact htaken

/-- A new loop is none of those that were made before. -/
theorem abides_startLoop (t : Tiers) (l i : Nat) : Abides t (t.startLoop l i) := by
  have hmade : Abides t (({ t with next := t.next + 1 } : Tiers).setLoop t.next
      ⟨l, (t.listener l).source, i, false, false, 0⟩) := by
    refine ⟨rfl, fun _ ↦ rfl, Nat.le_succ _, fun r hr hcancelled ↦ ?_⟩
    rw [loop_setLoop, if_neg (Nat.ne_of_lt hr)]
    exact hcancelled
  exact hmade.trans (abides_setListener _ rfl)

end Tiers

namespace Listener

open Tiers

/-- What a mark says of the loop that it names: a loop that was started has been made, and one that
somebody waits for was told to end. -/
def Mark.Holds (t : Tiers) : Mark → Prop
  | drains r => t.Dismissed r
  | retires r => t.Dismissed r
  | started r => r < t.next
  | ended => True

/-- What the marks say is true. -/
def Recorded (t : Tiers) (log : Log Mark) : Prop := ∀ x ∈ log, x.2.Holds t

theorem Recorded.abides {t t' : Tiers} {log : Log Mark} (h : Recorded t log) (ha : Abides t t') :
    Recorded t' log := by
  intro x hx
  have hholds := h x hx
  obtain ⟨th, e⟩ := x
  cases e with
  | drains r => exact ha.dismissed hholds
  | retires r => exact ha.dismissed hholds
  | started r => exact Nat.lt_of_lt_of_le hholds ha.next_le
  | ended => trivial

theorem Recorded.cons {t : Tiers} {log : Log Mark} (h : Recorded t log) {me : Nat} {e : Mark}
    (he : e.Holds t) : Recorded t ((me, e) :: log) :=
  List.forall_mem_cons.mpr ⟨he, h⟩

/-- The loop that was started last has been made. -/
theorem Recorded.newest_lt {t : Tiers} {log : Log Mark} (h : Recorded t log) {r : Nat}
    (hr : newest log = some r) : r < t.next := by
  induction log with
  | nil => cases hr
  | cons x log ih =>
    obtain ⟨th, e⟩ := x
    obtain ⟨hx, hlog⟩ := List.forall_mem_cons.mp h
    cases e with
    | started i =>
      obtain rfl := Option.some.inj hr
      exact hx
    | _ => exact ih hlog hr

/-- Where a thread waits for a loop, it has left a mark of it. -/
theorem Recorded.dismissed_of_phase {t : Tiers} {log : Log Mark} (h : Recorded t log) {th r : Nat}
    (hr : phase th log = .draining r ∨ phase th log = .retiring r) : t.Dismissed r := by
  unfold phase at hr
  cases hmarks : Marked.marksOf th log with
  | nil =>
    rw [hmarks] at hr
    rcases hr with hr | hr <;> cases hr
  | cons x rest =>
    have hmem : x ∈ log := by
      refine (List.mem_filter.mp (?_ : x ∈ Marked.marksOf th log)).1
      rw [hmarks]
      exact List.mem_cons_self
    have hx := h x hmem
    rw [hmarks] at hr
    obtain ⟨i, e⟩ := x
    cases e with
    | drains i =>
      rcases hr with hr | hr
      · rw [← Phase.draining.inj hr]
        exact hx
      · cases hr
    | retires i =>
      rcases hr with hr | hr
      · cases hr
      · rw [← Phase.retiring.inj hr]
        exact hx
    | _ => rcases hr with hr | hr <;> cases hr

end Listener

end TwoTier
