import TwoTier.Server.Reply
import TwoTier.Settings.Address
import TwoTier.Stats.Counters

/-!
A store that is reached over the network, as its caller sees it.

The peer is a queue of reactions: each command takes the next one. A command may be answered, never
answered, or lose its connection. What has been sent stays on record in `sent`.
-/

set_option autoImplicit false
set_option relaxedAutoImplicit false

namespace TwoTier

/-- What becomes of a command. -/
inductive Reaction where
  /-- It is answered. -/
  | reply (r : Reply)
  /-- It is never answered. -/
  | hang
  /-- The connection is lost. -/
  | close
  deriving Inhabited

/-- What a subscription delivers at once, and whether it ends then. -/
structure Push where
  /-- The messages. -/
  messages : List Reply
  /-- Whether the connection closes after them. -/
  ends : Bool

/-- A subscription to a channel of the peer. -/
structure Feed where
  /-- What tells the subscription from others. -/
  id : Nat
  /-- The messages not yet read. -/
  unread : List Reply
  /-- Whether more may come. -/
  isOpen : Bool

/-- The other end of the connections. -/
structure Peer where
  /-- What becomes of the commands to come. -/
  reactions : List Reaction
  /-- The commands that have reached the peer. -/
  sent : List (List String)
  /-- The number of keys, as the peer tells it. -/
  items : Reaction
  /-- What the subscriptions to come deliver at once. -/
  pushes : List Push
  /-- The subscriptions. -/
  feeds : List Feed
  /-- The number of the next subscription. -/
  nextFeed : Nat

/-- A connected store. -/
structure Server where
  /-- How it was connected. -/
  options : ServerOptions
  /-- The other end. -/
  peer : Peer
  /-- What has happened. -/
  counters : Counters
  /-- The pooled connections. -/
  connections : Nat
  /-- Whether it has been closed. -/
  closed : Bool

namespace Peer

/-- A peer that answers no command and delivers nothing. -/
def silent : Peer := ⟨[], [], .reply (.int 0), [], [], 0⟩

/-- The reaction where none is left. -/
def exhausted : Reaction := .reply (.error "ERR no reply left")

/-- Sends a command. -/
def send (command : List String) (p : Peer) : Reaction × Peer :=
  let p := { p with sent := p.sent ++ [command] }
  match p.reactions with
  | r :: rest => (r, { p with reactions := rest })
  | [] => (exhausted, p)

/-- Sends commands at once. The reactions are read up to the first that is no answer, or the first
error is the reaction to all. -/
def sendAll : List (List String) → Peer → Reaction × Peer
  | [], p => (.reply .okay, p)
  | command :: rest, p =>
    match p.send command with
    | (.reply r, p) =>
      match sendAll rest p with
      | (.reply s, p) => (.reply (if (Reply.error? r).isSome then r else s), p)
      | other => other
    | (reaction, p) => (reaction, { p with sent := p.sent ++ rest })

/-- Subscribes to a channel. The answer is the number of the subscription. -/
def subscribe (channel : String) (p : Peer) : Nat × Peer :=
  let (push, pushes) : Push × List Push :=
    match p.pushes with
    | push :: rest => (push, rest)
    | [] => (⟨[], false⟩, [])
  (p.nextFeed, { p with
    sent := p.sent ++ [["SUBSCRIBE", channel]]
    pushes := pushes
    feeds := p.feeds ++ [⟨p.nextFeed, push.messages, !push.ends⟩]
    nextFeed := p.nextFeed + 1 })

/-- Delivers messages to all open subscriptions. -/
def deliver (messages : List Reply) (p : Peer) : Peer :=
  { p with feeds := p.feeds.map fun f ↦
      if f.isOpen then { f with unread := f.unread ++ messages } else f }

/-- Closes all subscriptions. -/
def dropFeeds (p : Peer) : Peer :=
  { p with feeds := p.feeds.map fun f ↦ { f with isOpen := false } }

/-- What a subscription receives next: a message, nothing yet, or the end. -/
def receive (id : Nat) (p : Peer) : Option (Option Reply) × Peer :=
  match p.feeds.find? fun f ↦ f.id = id with
  | none => (some none, p)
  | some f =>
    match f.unread with
    | [] => (if f.isOpen then none else some none, p)
    | r :: rest =>
      (some (some r), { p with feeds := p.feeds.map fun g ↦
          if g.id = id then { g with unread := rest } else g })

/-- Ends a subscription. -/
def unsubscribe (id : Nat) (p : Peer) : Peer :=
  { p with feeds := p.feeds.filter fun f ↦ f.id ≠ id }

end Peer

instance : Inhabited Server := ⟨⟨default, .silent, .zero, 0, false⟩⟩

end TwoTier
