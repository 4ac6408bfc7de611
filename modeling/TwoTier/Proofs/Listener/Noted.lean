import TwoTier.Listener
import TwoTier.Proofs.Engine.Marked

/-!
# Operations of a listener, with notes

What is remembered of the starts and stops of a listener differs from one property to the next; what
they do does not. `Listener.Notes` are the marks to be left at each of the moments that count, and
the operations with them are the operations themselves where the marks are left out
(`Listener.underlies_notedStart`, `Listener.underlies_notedStop`).
-/

set_option autoImplicit false
set_option relaxedAutoImplicit false

namespace TwoTier

namespace Listener

open Marked (marks call_marks bind_marks)

variable {ε α : Type}

/-- The marks that the operations of a listener leave. -/
structure Notes (ε : Type) where
  /-- A start has taken the loop before over, tells it to end, and will wait for that. -/
  retires : Nat → List (Heap → ε) := fun _ ↦ []
  /-- A start has made a subscription to a channel, and makes a loop for it. -/
  subscribed : Nat → String → List (Heap → ε) := fun _ _ ↦ []
  /-- A start could not subscribe. -/
  refused : List (Heap → ε) := []
  /-- A stop has taken a loop over, tells it to end, and will wait for that. -/
  drains : Nat → List (Heap → ε) := fun _ ↦ []
  /-- A stop has waited for a loop, which has ended in time, or is ended now. -/
  settled : Nat → Bool → List (Heap → ε) := fun _ _ ↦ []

section Calls

variable (n : Notes ε) (l : Nat)

/-- The second half of a start: it subscribes, and makes the loop. -/
def notedSubscribe (k : Answer Unit → Marked ε α) : Marked ε α :=
  .act (Call.modify fun t ↦ t.setStage l .starting) fun _ ↦
    .act (Call.look fun h ↦ h.tiers.listener l) fun x ↦
      .act (subscribe x.source x.channel) fun
        | .ok i =>
          marks (n.subscribed i x.channel) <|
            .act (Call.modify fun t ↦ t.startLoop l i) fun _ ↦ .release (.listener l) (k (.ok ()))
        | .error f =>
          marks n.refused <| .act (Call.modify fun t ↦ t.setStage l .stopped) fun _ ↦
            .release (.listener l) (k (.error f))

/-- A start. -/
def notedStart (k : Answer Unit → Marked ε α) : Marked ε α :=
  .acquire (.listener l) <| .act (Call.look fun h ↦ isServed h l) fun
    | true => .release (.listener l) (k (.ok ()))
    | false => .act (Call.atomically fun h ↦ h.tiers.takeLoop l) fun
      | some r =>
        marks (n.retires r) <| .act (Call.modify fun t ↦ t.cancelLoop r) fun _ ↦
          .loopEnd r none fun _ ↦ notedSubscribe n l k
      | none => notedSubscribe n l k

/-- The end of a stop, which ends the loop where this has not ended in time. -/
def notedSettle (r : Nat) (k : Unit → Marked ε α) (inTime : Bool) : Marked ε α :=
  marks (n.settled r inTime) <|
    .act (Call.modify fun t ↦ (if inTime then t else t.closeLoop r).setStage l .stopped) k

/-- A stop. -/
def notedStop (k : Unit → Marked ε α) : Marked ε α :=
  .acquire (.listener l) <| .act (Call.atomically fun h ↦ h.tiers.takeLoop l) fun taken ↦
    .release (.listener l) <|
      match taken with
      | none => k ()
      | some r =>
        marks (n.drains r) <|
          .act (Call.modify fun t ↦ (t.setStage l .stopping).cancelLoop r) fun _ ↦
            .act (Call.look fun h ↦ Clock.deadline h.now (h.tiers.listener l).patience)
              fun deadline ↦ .loopEnd r deadline (notedSettle n l r k)

/-! ### What follows them -/

variable {β : Type}

theorem notedSubscribe_bind (k : Answer Unit → Marked ε α) (f : α → Marked ε β) :
    (notedSubscribe n l k).bind f = notedSubscribe n l fun a ↦ (k a).bind f := by
  refine congrArg (Marked.act _) (funext fun _ ↦ congrArg (Marked.act _) (funext fun x ↦ ?_))
  refine congrArg (Marked.act _) (funext fun a ↦ ?_)
  cases a <;> exact bind_marks _ _ f

theorem notedStart_bind (k : Answer Unit → Marked ε α) (f : α → Marked ε β) :
    (notedStart n l k).bind f = notedStart n l fun a ↦ (k a).bind f := by
  refine congrArg (Marked.acquire _) (congrArg (Marked.act _) (funext fun served ↦ ?_))
  cases served with
  | true => rfl
  | false =>
    refine congrArg (Marked.act _) (funext fun taken ↦ ?_)
    cases taken with
    | none => exact notedSubscribe_bind n l k f
    | some r =>
      refine (bind_marks _ _ f).trans (congrArg (marks _) (congrArg (Marked.act _) ?_))
      exact funext fun _ ↦ congrArg (Marked.loopEnd r none)
        (funext fun _ ↦ notedSubscribe_bind n l k f)

theorem notedStop_bind (k : Unit → Marked ε α) (f : α → Marked ε β) :
    (notedStop n l k).bind f = notedStop n l fun a ↦ (k a).bind f := by
  refine congrArg (Marked.acquire _) (congrArg (Marked.act _) (funext fun taken ↦ ?_))
  refine congrArg (Marked.release _) ?_
  cases taken with
  | none => rfl
  | some r =>
    refine (bind_marks _ _ f).trans (congrArg (marks _) (congrArg (Marked.act _) ?_))
    refine funext fun _ ↦ congrArg (Marked.act _) (funext fun deadline ↦ ?_)
    exact congrArg (Marked.loopEnd r deadline) (funext fun inTime ↦ bind_marks _ _ f)

/-! ### Without their notes they are the operations -/

/-- The second half of a start. -/
theorem call_notedSubscribe (k : Answer Unit → Marked ε α) :
    (notedSubscribe n l k).call = Call.bind (do
      Call.modify fun t ↦ t.setStage l .starting
      let x ← Call.look fun h ↦ h.tiers.listener l
      match ← subscribe x.source x.channel with
      | .ok subscription =>
        Call.modify fun t ↦ t.startLoop l subscription
        Call.unlock (.listener l)
        return .ok ()
      | .error f =>
        Call.modify fun t ↦ t.setStage l .stopped
        Call.unlock (.listener l)
        return .error f) fun a ↦ (k a).call := by
  refine congrArg Call.read (funext fun h ↦ congrArg (Call.write _) ?_)
  refine congrArg Call.read (funext fun h ↦ ?_)
  change (subscribe _ _).bind _ = ((subscribe _ _).bind _).bind _
  rw [Call.bind_assoc]
  refine congrArg (Call.bind _) (funext fun a ↦ ?_)
  cases a <;> exact call_marks _ _

theorem underlies_notedStart : (start l).Underlies (notedStart n l) := by
  refine fun k ↦ congrArg (Call.acquire _) (congrArg Call.read (funext fun h ↦ ?_))
  change (Call.done (isServed h l)).bind _ = ((Call.done (isServed h l)).bind _).bind _
  simp only [Call.done_bind]
  cases isServed h l with
  | true => rfl
  | false =>
    refine congrArg Call.read (funext fun h ↦ congrArg (Call.write _) ?_)
    simp only [Tiers.takeLoop]
    cases (h.tiers.listener l).loop with
    | none => exact call_notedSubscribe n l k
    | some r =>
      refine (call_marks _ _).trans ?_
      refine congrArg Call.read (funext fun h ↦ congrArg (Call.write _) ?_)
      exact congrArg (Call.loopEnd r none) (funext fun _ ↦ call_notedSubscribe n l k)

theorem underlies_notedStop : (stop l).Underlies (notedStop n l) := by
  refine fun k ↦ congrArg (Call.acquire _) (congrArg Call.read (funext fun h ↦ ?_))
  refine congrArg (Call.write _) (congrArg (Call.release _) ?_)
  simp only [Tiers.takeLoop]
  cases (h.tiers.listener l).loop with
  | none => rfl
  | some r =>
    refine (call_marks _ _).trans ?_
    refine congrArg Call.read (funext fun h ↦ congrArg (Call.write _) (congrArg Call.read ?_))
    exact funext fun h ↦ congrArg (Call.loopEnd r _) (funext fun inTime ↦ call_marks _ _)

end Calls

end Listener

end TwoTier
