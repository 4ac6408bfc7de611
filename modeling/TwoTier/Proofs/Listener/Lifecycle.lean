import TwoTier.Proofs.Engine.Play
import TwoTier.Proofs.Listener.Aside
import TwoTier.Proofs.Listener.Noted

/-!
# Starts and stops of a listener

Many tasks start and stop a listener. Their calls leave marks of what they wait for
(`Listener.tending`): a stop, for the end of the loop that it has taken over, and a start, for the
end of the loop that it replaces (`Listener.Phase`). From the marks it is read which loop was
started last (`Listener.newest`), and whether this happened while a stop still waited
(`Listener.Slipped`).
-/

set_option autoImplicit false
set_option relaxedAutoImplicit false

namespace TwoTier

namespace Listener

/-- What is marked about the calls on a listener. -/
inductive Mark where
  /-- A stop has taken a loop over, and waits for its end. -/
  | drains (r : Nat)
  /-- A start has taken the loop before over, and waits for its end. -/
  | retires (r : Nat)
  /-- A start makes a new loop. -/
  | started (r : Nat)
  /-- A stop has waited long enough, or a start has failed. -/
  | ended
  deriving DecidableEq, Repr

/-- Where a thread is in a start or a stop. One that waits for the lock has done nothing yet. -/
inductive Phase where
  /-- Nowhere. -/
  | idle
  /-- In a stop that waits for the end of a loop. -/
  | draining (r : Nat)
  /-- In a start that waits for the end of a loop. -/
  | retiring (r : Nat)
  deriving DecidableEq, Repr

/-- Where a mark leaves the thread that leaves it. -/
def Mark.phase : Mark → Phase
  | drains r => .draining r
  | retires r => .retiring r
  | started _ => .idle
  | ended => .idle

/-- Where a thread is. -/
def phase (th : Nat) (log : Log Mark) : Phase :=
  ((Marked.marksOf th log).head?).elim .idle fun x ↦ x.2.phase

/-- Some stop waits for the end of a loop. -/
def Draining (log : Log Mark) : Prop := ∃ th r, phase th log = .draining r

/-- The loop that was started last. -/
def newest : Log Mark → Option Nat
  | [] => none
  | (_, .started r) :: _ => some r
  | _ :: log => newest log

/-- Whether the loop that was started last was started while a stop still waited. -/
def Slipped : Log Mark → Prop
  | [] => False
  | (_, .started _) :: log => Draining log
  | _ :: log => Slipped log

theorem phase_congr {th : Nat} {log log' : Log Mark}
    (h : Marked.marksOf th log' = Marked.marksOf th log) : phase th log' = phase th log := by
  rw [phase, h, phase]

theorem phase_cons_self (th : Nat) (e : Mark) (log : Log Mark) :
    phase th ((th, e) :: log) = e.phase := by
  simp [phase, Marked.marksOf]

theorem phase_cons_of_ne {th me : Nat} (h : th ≠ me) (e : Mark) (log : Log Mark) :
    phase th ((me, e) :: log) = phase th log := by
  refine phase_congr ?_
  simp [Marked.marksOf, h.symm]

/-- After a mark that leaves its thread idle, whoever is not idle is another thread, and is where it
was. -/
theorem phase_of_cons {th me : Nat} {e : Mark} {log : Log Mark} (he : e.phase = .idle) {ph : Phase}
    (hth : phase th ((me, e) :: log) = ph) (hph : ph ≠ .idle) :
    th ≠ me ∧ phase th log = ph := by
  have hne : th ≠ me := by
    intro heq
    rw [heq, phase_cons_self, he] at hth
    exact hph hth.symm
  rw [phase_cons_of_ne hne] at hth
  exact ⟨hne, hth⟩

/-- The marks of the calls on a listener. -/
def tending : Notes Mark where
  retires r := [fun _ ↦ .retires r]
  subscribed _ _ := [fun h ↦ .started h.tiers.next]
  refused := [fun _ ↦ .ended]
  drains r := [fun _ ↦ .drains r]
  settled _ _ := [fun _ ↦ .ended]

end Listener

end TwoTier
