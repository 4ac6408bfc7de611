import TwoTier.Engine.Loop
import TwoTier.Tier.Server

/-!
The life of a listener for invalidation notices.

A listener subscribes to the channel of a store and runs a receive loop, which removes the keys
named in notices from a local tier. `Listener.start` returns once the subscription stands;
`Listener.stop` tells the loop to end, waits for it no longer than the patience of the listener, and
ends it then. A loop whose subscription is lost ends by itself, and the listener can be started
again.

The lock of a listener is held for all of a start, but by a stop only while it takes the loop over:
a start may begin while a stop still waits.
-/

set_option autoImplicit false
set_option relaxedAutoImplicit false

namespace TwoTier

/-- The name of a stage. -/
def ListenerState.title : ListenerState → String
  | stopped => "stopped"
  | starting => "starting"
  | running => "running"
  | stopping => "stopping"

namespace Tiers

/-- A listener is in another stage. -/
def setStage (t : Tiers) (l : Nat) (state : ListenerState) : Tiers :=
  t.setListener l { t.listener l with state := state }

/-- A listener runs with a new receive loop on a subscription. -/
def startLoop (t : Tiers) (l subscription : Nat) : Tiers :=
  let x := t.listener l
  let r := t.next
  ({ t with next := r + 1 }.setLoop r ⟨l, x.source, subscription, false, false, 0⟩).setListener l
    { x with state := .running, loop := some r }

end Tiers

namespace Listener

/-- A listener that has not been started. -/
def idle (localTier : Nat) (source : Source) (channel : String) (patience : Nat) : Listener :=
  ⟨localTier, source, channel, patience, .stopped, 0, 0, 0, 0, none⟩

/-- Makes a listener. -/
def create (x : Listener) : Call Nat := Call.allocate fun l t ↦ t.setListener l x

/-- Measures a listener. -/
def stats (x : Listener) : Snapshot :=
  Snapshot.ofList
    [("running", .int (if x.state = .running then 1 else 0)), ("received", .count x.received),
      ("applied", .count x.applied), ("ignored", .count x.ignored), ("failed", .count x.failed)]

/-- Subscribes to a channel of a store. The answer is the number of the subscription. -/
def subscribe (source : Source) (channel : String) : Call (Answer Nat) :=
  match source with
  | .store s => Call.onStore s fun _ ↦ Store.subscribe channel
  | .server r => ServerHandle.subscribe ⟨r, 0⟩ channel

/-- Whether a listener has nothing to do in order to run. -/
def isServed (h : Heap) (l : Nat) : Bool :=
  let x := h.tiers.listener l
  match x.loop with
  | some r => !(h.tiers.loop r).ended && x.state = .running
  | none => false

/-- Ends the loop that a listener has left over, and waits for its end. -/
def retire (l : Nat) : Call Unit := do
  match ← Call.atomically fun h ↦ h.tiers.takeLoop l with
  | some r =>
    Call.modify fun t ↦ t.cancelLoop r
    Call.loopEnd r none fun _ ↦ .done ()
  | none => return ()

/-- Starts a listener, unless it runs. -/
def start (l : Nat) : Call (Answer Unit) := do
  Call.lock (.listener l)
  if ← Call.look fun h ↦ isServed h l then
    Call.unlock (.listener l)
    return .ok ()
  else
    retire l
    Call.modify fun t ↦ t.setStage l .starting
    let x ← Call.look fun h ↦ h.tiers.listener l
    match ← subscribe x.source x.channel with
    | .ok subscription =>
      Call.modify fun t ↦ t.startLoop l subscription
      Call.unlock (.listener l)
      return .ok ()
    | .error f =>
      Call.modify fun t ↦ t.setStage l .stopped
      Call.unlock (.listener l)
      return .error f

/-- Stops a listener. One without a loop is left as it is. -/
def stop (l : Nat) : Call Unit := do
  Call.lock (.listener l)
  let taken ← Call.atomically fun h ↦ h.tiers.takeLoop l
  Call.unlock (.listener l)
  match taken with
  | none => return ()
  | some r =>
    Call.modify fun t ↦ (t.setStage l .stopping).cancelLoop r
    let deadline ← Call.look fun h ↦ Clock.deadline h.now (h.tiers.listener l).patience
    let inTime ← Call.loopEnd r deadline .done
    Call.modify fun t ↦ (if inTime then t else t.closeLoop r).setStage l .stopped

end Listener

end TwoTier
