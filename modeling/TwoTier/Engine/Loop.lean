import TwoTier.Engine.Heap

/-!
The steps of receive loops.

A receive loop takes one message of its subscription in each step and applies it to the local tier
of its listener (`Tiers.applyNotice`). It ends when it was told to or when its subscription has
ended; a listener that still runs has stopped then.
-/

set_option autoImplicit false
set_option relaxedAutoImplicit false

namespace TwoTier

/-- The payload that names no single key. -/
def isPattern (payload : String) : Bool := ":*".toList.isSuffixOf payload.toList

namespace Tiers

/-- A notice is applied: its key leaves the local tier, unless it is empty or a pattern. -/
def applyNotice (t : Tiers) (l : Nat) (payload : String) : Tiers :=
  let x := t.listener l
  let x := { x with received := x.received + 1 }
  if payload = "" ∨ isPattern payload then t.setListener l { x with ignored := x.ignored + 1 }
  else
    (t.setLocal x.localTier ((t.localTier x.localTier).drop payload)).setListener l
      { x with applied := x.applied + 1 }

/-- A message was lost or could not be read. -/
def failNotice (t : Tiers) (l : Nat) : Tiers :=
  let x := t.listener l
  t.setListener l { x with received := x.received + 1, failed := x.failed + 1 }

/-- Ends a subscription. -/
def unsubscribe (t : Tiers) (source : Source) (subscription : Nat) : Tiers :=
  match source with
  | .store s => t.setStore s ((t.store s).unsubscribe subscription)
  | .server r =>
    let x := t.server r
    t.setServer r { x with peer := x.peer.unsubscribe subscription }

/-- A receive loop is gone, and its subscription with it. -/
def closeLoop (t : Tiers) (r : Nat) : Tiers :=
  let x := t.loop r
  (t.unsubscribe x.source x.subscription).setLoop r { x with ended := true }

/-- A receive loop ends by itself: a listener that still runs has stopped then. -/
def endLoop (t : Tiers) (r : Nat) : Tiers :=
  let t' := t.closeLoop r
  let l := (t.loop r).listener
  let x := t'.listener l
  if x.state = .running then t'.setListener l { x with state := .stopped } else t'

/-- One step of a receive loop: it ends where it was told to or where its subscription has ended,
and else it takes the next message. -/
def stepLoop (t : Tiers) (r : Nat) : Tiers :=
  let x := t.loop r
  if x.ended then t
  else if x.cancelled then t.endLoop r
  else
    match x.source with
    | .store s =>
      let (delivery, store) := (t.store s).receive x.subscription
      let t' := t.setStore s store
      match delivery with
      | .payload p => t'.applyNotice x.listener p
      | .lagged _ => t'.failNotice x.listener
      | .ended => t'.endLoop r
      | .pending => t
    | .server i =>
      let server := t.server i
      let (message, peer) := server.peer.receive x.subscription
      let t' := t.setServer i { server with peer := peer }
      match message with
      | some (some reply) =>
        match reply.text? with
        | some p => t'.applyNotice x.listener p
        | none => t'.failNotice x.listener
      | some none => t'.endLoop r
      | none => t

/-- A receive loop is told to end. -/
def cancelLoop (t : Tiers) (r : Nat) : Tiers := t.setLoop r { t.loop r with cancelled := true }

/-- The loop of a listener, and the tiers after the listener gave it up. -/
def takeLoop (t : Tiers) (l : Nat) : Option Nat × Tiers :=
  ((t.listener l).loop, t.setListener l { t.listener l with loop := none })

/-- Whether a receive loop has something to do. -/
def loopReady (t : Tiers) (r : Nat) : Bool :=
  let x := t.loop r
  !x.ended && (x.cancelled ||
    match x.source with
    | .store s => ((t.store s).receive x.subscription).1 ≠ .pending
    | .server i => ((t.server i).peer.receive x.subscription).1.isSome)

end Tiers

end TwoTier
